import RsModbus.Laws.ReplyFrames

/-!
# The byte count of a read reply

FC 1 to FC 4 and FC 23 take the byte count of their reply from the requested quantity and the bytes
that follow it from the vector that the model returned. `readReply_consistent_iff` says for which
vectors the two agree: those with the requested number of registers, and those with as many coils as
fill the requested number of bytes. FC 17 counts the bytes it sends.
-/

namespace RsModbus.Slave

variable {σ : Type}

/-! ## Reads -/

/-- The bytes that the requested quantity of a read takes. -/
def Call.requestedBytes : Call → Nat
  | .readCoils _ n => (n.toNat + 7) / 8
  | .readDiscreteInputs _ n => (n.toNat + 7) / 8
  | .readHoldingRegisters _ n => n.toNat * 2
  | .readInputRegisters _ n => n.toNat * 2
  | _ => 0

/-- The bytes that the values of a read are packed into. -/
def Call.packed : (c : Call) → c.Answer → Bytes
  | .readCoils .., coils => (chunks 8 coils).map packByte
  | .readDiscreteInputs .., inputs => (chunks 8 inputs).map packByte
  | .readHoldingRegisters .., registers => registers.flatMap u16ToBe
  | .readInputRegisters .., registers => registers.flatMap u16ToBe
  | _, _ => []

/-- As many values as requested; coils up to a whole byte. -/
def Call.Fills : (c : Call) → c.Answer → Prop
  | .readCoils _ n, coils => (coils.length + 7) / 8 = (n.toNat + 7) / 8
  | .readDiscreteInputs _ n, inputs => (inputs.length + 7) / 8 = (n.toNat + 7) / 8
  | .readHoldingRegisters _ n, registers => registers.length = n.toNat
  | .readInputRegisters _ n, registers => registers.length = n.toNat
  | _, _ => True

theorem fills_iff (c : Call) (values : c.Answer) :
    c.Fills values ↔ (c.packed values).length = c.requestedBytes := by
  cases c with
  | readCoils a n =>
    rw [Call.packed, List.length_map, length_chunks]
    exact Iff.rfl
  | readDiscreteInputs a n =>
    rw [Call.packed, List.length_map, length_chunks]
    exact Iff.rfl
  | readHoldingRegisters a n =>
    rw [Call.packed, length_flatMap_u16ToBe, Call.requestedBytes, Call.Fills]
    omega
  | readInputRegisters a n =>
    rw [Call.packed, length_flatMap_u16ToBe, Call.requestedBytes, Call.Fills]
    omega
  | _ => exact iff_of_true trivial rfl

/-- The handler of the request, run from a world, accepts it and reads with the call `c` in the world
`u`. FC 23 has written by then. -/
inductive Reads (checks : Bool) (model : ModbusSlaveModel σ) (adu : ApplicationDataUnit)
    (w : World σ) : Call → World σ → Prop
  | coils {a n : UInt16} (hfc : adu.fc = 0x01)
    (h : readWindow checks 0x07d0 model.addressRange.coils adu.data = .ok (.accept (a, n))) :
    Reads checks model adu w (.readCoils a n) w
  | discreteInputs {a n : UInt16} (hfc : adu.fc = 0x02)
    (h : readWindow checks 0x07d0 model.addressRange.discreteInputs adu.data =
      .ok (.accept (a, n))) :
    Reads checks model adu w (.readDiscreteInputs a n) w
  | holdingRegisters {a n : UInt16} (hfc : adu.fc = 0x03)
    (h : readWindow checks 0x007d model.addressRange.holdingRegisters adu.data =
      .ok (.accept (a, n))) :
    Reads checks model adu w (.readHoldingRegisters a n) w
  | inputRegisters {a n : UInt16} (hfc : adu.fc = 0x04)
    (h : readWindow checks 0x007d model.addressRange.inputRegisters adu.data =
      .ok (.accept (a, n))) :
    Reads checks model adu w (.readInputRegisters a n) w
  | readWrite {r : ReadWrite} {written : List UInt16} {u : World σ} (hfc : adu.fc = 0x17)
    (h : readWrite checks model.addressRange.holdingRegisters adu.data = .ok (.accept r))
    (hvalues : registerValues 9 adu.data r.writeLength = .ok written)
    (hwrite : model.call checks (.writeMultipleRegisters r.writeAddress written) w =
      (.ok (.ok ()), u)) :
    Reads checks model adu w (.readHoldingRegisters r.readAddress r.readLength) u

section Reads

variable {ctx : Context} {model : ModbusSlaveModel σ} {adu : ApplicationDataUnit} {w u w' : World σ}
  {c : Call} {values : c.Answer}

/-- The function codes of reads. -/
theorem Reads.fc (h : Reads ctx.checks model adu w c u) : adu.fc = 0x01 ∨ adu.fc = 0x02 ∨
    adu.fc = 0x03 ∨ adu.fc = 0x04 ∨ adu.fc = 0x17 := by
  cases h <;> tauto

theorem replies_of_call {checks : Bool} {call : Call}
    {result : Except Panic (Except ModbusError call.Answer)}
    (h : model.call checks call w = (result, w')) : w'.replies = w.replies := by
  have hkept := replies_call model checks call w
  rwa [h] at hkept

/-- Reading sends nothing. -/
theorem Reads.replies (h : Reads ctx.checks model adu w c u)
    (hread : model.call ctx.checks c u = (.ok (.ok values), w')) : w'.replies = w.replies := by
  refine (replies_of_call hread).trans ?_
  cases h with
  | readWrite _ _ _ hwrite => exact replies_of_call hwrite
  | _ => rfl

/-- What a decision accepts satisfies what the checks promise of it. -/
theorem Decided.of_accept {α : Type} {panics ignored : Prop} {accepted : α → Prop} {a : α}
    {d : Except Panic (Decision α)} (h : Decided panics ignored accepted d)
    (hd : d = .ok (.accept a)) : accepted a := by
  cases h with
  | accepted a' _ _ ha =>
    cases hd
    exact ha
  | _ => cases hd

theorem accepted_read {checks : Bool} {limit a n : UInt16} {ranges : List (UInt16 × UInt16)}
    {data : Bytes} (h : readWindow checks limit ranges data = .ok (.accept (a, n))) :
    n.toNat ≤ limit.toNat :=
  UInt16.le_iff_toNat_le.mp ((readWindow_decided checks limit ranges data).of_accept h).2

/-- A byte count counts up to 255 bytes. -/
theorem Reads.lt (h : Reads ctx.checks model adu w c u) : c.requestedBytes < 256 := by
  cases h with
  | coils _ h =>
    have hn : _ ≤ 2000 := accepted_read h
    rw [Call.requestedBytes]
    omega
  | discreteInputs _ h =>
    have hn : _ ≤ 2000 := accepted_read h
    rw [Call.requestedBytes]
    omega
  | holdingRegisters _ h =>
    have hn : _ ≤ 125 := accepted_read h
    rw [Call.requestedBytes]
    omega
  | inputRegisters _ h =>
    have hn : _ ≤ 125 := accepted_read h
    rw [Call.requestedBytes]
    omega
  | readWrite _ h =>
    have hwithin := ((readWrite_decided _ _ adu.data).of_accept h).1
    have hn : _ ≤ 125 := UInt16.le_iff_toNat_le.mp hwithin.1.2
    rw [Call.requestedBytes]
    omega

/-- The handler replies with the count of the requested bytes and the packed values. -/
theorem Reads.dispatch (customFcs : UInt8 → Option (CustomFunctionCode σ))
    (response : SlaveResponseFn σ) (h : Reads ctx.checks model adu w c u)
    (hread : model.call ctx.checks c u = (.ok (.ok values), w')) :
    dispatch ctx customFcs model adu response w =
      reply ctx adu response (UInt8.ofNat c.requestedBytes :: c.packed values) w' := by
  cases h with
  | coils hfc h =>
    have hn : _ ≤ 2000 := accepted_read h
    unfold Slave.dispatch
    rw [hfc]
    show handleFc1 ctx model adu response w = _
    refine handleRead_accepts ctx adu h ?_ (packCoils_eq (by omega))
    exact hread
  | discreteInputs hfc h =>
    have hn : _ ≤ 2000 := accepted_read h
    unfold Slave.dispatch
    rw [hfc]
    show handleFc2 ctx model adu response w = _
    refine handleRead_accepts ctx adu h ?_ (packCoils_eq (by omega))
    exact hread
  | holdingRegisters hfc h =>
    have hn : _ ≤ 125 := accepted_read h
    unfold Slave.dispatch
    rw [hfc]
    show handleFc3 ctx model adu response w = _
    refine handleRead_accepts ctx adu h ?_ (packRegisters_eq (by omega))
    exact hread
  | inputRegisters hfc h =>
    have hn : _ ≤ 125 := accepted_read h
    unfold Slave.dispatch
    rw [hfc]
    show handleFc4 ctx model adu response w = _
    refine handleRead_accepts ctx adu h ?_ (packRegisters_eq (by omega))
    exact hread
  | readWrite hfc h hvalues hwrite =>
    obtain ⟨hwithin, -, hfits⟩ := (readWrite_decided _ _ adu.data).of_accept h
    have hn : _ ≤ 125 := UInt16.le_iff_toNat_le.mp hwithin.1.2
    unfold Slave.dispatch
    rw [hfc]
    exact handleFc23_accepts ctx adu model h (fun hover => hfits ⟨hover.1, .inr hover.2⟩) hvalues
      hwrite hread (packRegisters_eq (by omega))

end Reads

/-! ## Consistent replies -/

/-- The reply to a read with the call `c`: an exception, or a byte count that counts the bytes behind
it and is the one of the requested quantity. An RTU receiver predicts its length, whatever follows. -/
structure Consistent (c : Call) (adu adu' : ApplicationDataUnit) : Prop where
  counted : (adu'.fc = adu.fc ||| exceptionOffset ∧ ∃ code, adu'.data = [code]) ∨
    adu'.fc = adu.fc ∧ ∃ byteCount payload, adu'.data = byteCount :: payload ∧
      byteCount.toNat = payload.length ∧ byteCount.toNat = c.requestedBytes
  inStep : ∀ rest : Bytes, predictRtuFrameLength (Rtu.encode adu' ++ rest) true =
    .length (Rtu.encode adu').length

section Consistent

variable {c : Call} {adu adu' : ApplicationDataUnit} {count : Nat} {payload : Bytes}

/-- A prediction stands, whatever follows. -/
theorem inStep_of_predicted
    (h : predictRtuFrameLength (Rtu.encode adu') true = .length (adu'.data.length + 4))
    (rest : Bytes) : predictRtuFrameLength (Rtu.encode adu' ++ rest) true =
      .length (Rtu.encode adu').length := by
  rw [Rtu.predictRtuFrameLength_append _ rest true (by rw [h]; exact nofun), h, Rtu.length_encode]

theorem consistent_exception (c : Call) (adu : ApplicationDataUnit) (code : UInt8) :
    Consistent c adu (exceptionTo adu code) where
  counted := .inl ⟨rfl, code, rfl⟩
  inStep := inStep_of_predicted (predicted_exception adu code)

/-- A reply that is sent is consistent when the requested bytes are packed. -/
theorem consistent_iff (hfc : adu.fc = 0x01 ∨ adu.fc = 0x02 ∨ adu.fc = 0x03 ∨ adu.fc = 0x04 ∨
      adu.fc = 0x17) (hlt : c.requestedBytes < 256)
    (hreply : adu'.fc = adu.fc ∧ adu'.data = UInt8.ofNat c.requestedBytes :: payload) :
    Consistent c adu adu' ↔ payload.length = c.requestedBytes := by
  obtain ⟨hsame, hdata⟩ := hreply
  constructor
  · rintro ⟨⟨hexception, -⟩ | ⟨-, byteCount, payload', hdata', hcount, hrequested⟩, -⟩
    · -- the function code of a read is not the one of an exception
      rw [hsame] at hexception
      rcases hfc with h | h | h | h | h <;> rw [h] at hexception <;>
        exact absurd hexception (by decide)
    · rw [hdata] at hdata'
      obtain ⟨rfl, rfl⟩ := List.cons.inj hdata'
      exact hcount.symm.trans hrequested
  · intro hlen
    have hcount : (UInt8.ofNat c.requestedBytes).toNat = c.requestedBytes := toNat_byteCount hlt
    refine ⟨.inr ⟨hsame, _, payload, hdata, hcount.trans hlen.symm, hcount⟩, ?_⟩
    rw [← hlen] at hdata hlt
    rw [← hsame] at hfc
    exact inStep_of_predicted (predicted_counted (by tauto) hlt hdata)

end Consistent

/-- The replies to a read that its handler accepts. -/
theorem processModel_consistent_iff (protocol : ApplicationProtocol) (settings : LayerSettings)
    (checks : Bool) (replyOutcome : Nat → Except ModbusError Unit)
    (customFcs : UInt8 → Option (CustomFunctionCode σ)) {model : ModbusSlaveModel σ}
    {adu : ApplicationDataUnit} {w u w' : World σ} {c : Call} {values : c.Answer}
    (hlet : (model.intercepts adu w.state).1 = .ok none)
    (hreads : Reads checks model adu (afterIntercept model adu w) c u)
    (hread : model.call checks c u = (.ok (.ok values), w')) :
    Sends protocol settings (Consistent c adu) w.replies
        (processModel ⟨checks, encode protocol settings, replyOutcome⟩ customFcs adu
          (sendReply ⟨checks, encode protocol settings, replyOutcome⟩) model w).2.replies ↔
      c.Fills values := by
  let ctx : Context := ⟨checks, encode protocol settings, replyOutcome⟩
  let adu' : ApplicationDataUnit :=
    { adu with data := UInt8.ofNat c.requestedBytes :: c.packed values }
  have hparts : adu'.fc = adu.fc ∧ adu'.data = UInt8.ofNat c.requestedBytes :: c.packed values :=
    ⟨rfl, rfl⟩
  have hreads : Reads ctx.checks model adu (afterIntercept model adu w) c u := hreads
  have hdispatch : dispatch ctx customFcs model adu (sendReply ctx) (afterIntercept model adu w) =
      sendReply ctx (encode protocol settings adu') w' :=
    hreads.dispatch customFcs (sendReply ctx) hread
  have hreplies : w'.replies = w.replies := hreads.replies hread
  rw [processModel_let ctx customFcs adu (sendReply ctx) model w hlet, fills_iff]
  refine (sends_of_reply (consistent_exception c adu) hdispatch hreplies).trans ?_
  constructor
  · rintro ⟨a, ha, hconsistent⟩
    exact (consistent_iff hreads.fc hreads.lt (parts_of_encode_eq ha)).mp hconsistent
  · intro hlen
    exact ⟨adu', rfl, (consistent_iff hreads.fc hreads.lt hparts).mpr hlen⟩

/-- **When a read reply is consistent**: exactly when the model has returned as many registers as were
requested, or coils for as many bytes. For each protocol and build, each model, each request for a
registered unit that is not intercepted and that its handler accepts and reads for, and whatever the
model's read and the reply closure return. -/
theorem readReply_consistent_iff (protocol : ApplicationProtocol) (settings : LayerSettings)
    (checks : Bool) (replyOutcome : Nat → Except ModbusError Unit)
    (customFcs : UInt8 → Option (CustomFunctionCode σ)) {models : List (ModbusSlaveModel σ)}
    {model : ModbusSlaveModel σ} {frame : FramedDataUnit} {w u w' : World σ} {c : Call}
    {values : c.Answer} (hunit : frame.adu.unit ≠ 0)
    (hmodel : models.find? (fun m => m.unit = frame.adu.unit) = some model)
    (hlet : (model.intercepts frame.adu w.state).1 = .ok none)
    (hreads : Reads checks model frame.adu (afterIntercept model frame.adu w) c u)
    (hread : model.call checks c u = (.ok (.ok values), w')) :
    Sends protocol settings (Consistent c frame.adu) w.replies
        (processFrame ⟨checks, encode protocol settings, replyOutcome⟩ customFcs models frame
          w).2.replies ↔
      c.Fills values := by
  rw [processFrame_of_find _ customFcs hunit hmodel]
  exact processModel_consistent_iff protocol settings checks replyOutcome customFcs hlet hreads hread

/-- A model that returns one holding register, however many are read. -/
def oneRegister : ModbusSlaveModel Unit where
  unit := 0x01
  addressRange := {}
  implemented
    | .readHoldingRegisters .. => some fun s => (.ok [7], s)
    | _ => none

theorem call_oneRegister (a n : UInt16) (w : World Unit) :
    oneRegister.call false (.readHoldingRegisters a n) w =
      (.ok (.ok [7]), { w with calls := w.calls ++ [(0x01, .readHoldingRegisters a n)] }) := rfl

/-- A request for `n` holding registers from address 0 on. -/
def registersRequest (n : UInt16) : FramedDataUnit :=
  ⟨⟨none, 0x01, 0x03, u16ToBe 0 ++ u16ToBe n⟩, []⟩

/-- One register is requested. -/
theorem readReply_consistent_one :
    Sends .rtu {} (Consistent (.readHoldingRegisters 0 1) (registersRequest 1).adu) []
      (processFrame ⟨false, encode .rtu {}, fun _ => .ok ()⟩ (fun _ => none) [oneRegister]
        (registersRequest 1) ⟨(), [], []⟩).2.replies := by
  have haccept : readWindow false 0x007d oneRegister.addressRange.holdingRegisters
      (registersRequest 1).adu.data = .ok (.accept (0, 1)) := by decide
  have hfills : Call.Fills (.readHoldingRegisters 0 1) [7] := rfl
  exact (readReply_consistent_iff .rtu {} false (fun _ => .ok ()) (fun _ => none) (by decide) rfl rfl
    (.holdingRegisters rfl haccept) (call_oneRegister 0 1 _)).mpr hfills

/-- Two registers are requested: the byte count is 4, and two bytes follow it. -/
theorem readReply_out_of_step :
    (oneRegister.call false (.readHoldingRegisters 0 2) ⟨(), [], []⟩).1 = .ok (.ok [7]) ∧
      ¬ Sends .rtu {} (Consistent (.readHoldingRegisters 0 2) (registersRequest 2).adu) []
        (processFrame ⟨false, encode .rtu {}, fun _ => .ok ()⟩ (fun _ => none) [oneRegister]
          (registersRequest 2) ⟨(), [], []⟩).2.replies := by
  refine ⟨rfl, ?_⟩
  have haccept : readWindow false 0x007d oneRegister.addressRange.holdingRegisters
      (registersRequest 2).adu.data = .ok (.accept (0, 2)) := by decide
  have hfills : ¬ Call.Fills (.readHoldingRegisters 0 2) [7] := by
    rw [Call.Fills]
    decide
  rw [processFrame_of_find _ (fun _ => none) (by decide : (registersRequest 2).adu.unit ≠ 0) rfl]
  exact fun h => hfills ((processModel_consistent_iff .rtu {} false (fun _ => .ok ())
    (fun _ => none) rfl (.holdingRegisters rfl haccept) (call_oneRegister 0 2 _)).mp h)

end RsModbus.Slave
