import RsModbus.Laws.Decisions

/-!
# How the handling of a request ends

A built-in handler ends in one of three ways: it panics on an address that overflows, it ignores a
request whose length is not the one its function code prescribes, or it passes one reply to the
closure and returns what the closure returned. `dispatch_outcome` says which of the three it is, from
the request alone, and what the reply is made of (`Produced`).
-/

namespace RsModbus.Slave

variable {σ α β : Type}

/-! ## Calls -/

/-- The model's own method can return the value. -/
def Returns (model : ModbusSlaveModel σ) (c : Call) (value : c.Answer) : Prop :=
  ∃ body s, model.implemented c = some body ∧ (body s).1 = .ok value

section Calls

variable {model : ModbusSlaveModel σ} {checks : Bool} {w w' : World σ}

/-- A method whose default is an error succeeds only where the model has its own. -/
theorem returns_of_call {c : Call} {value : c.Answer}
    (hdefault : ∀ w, ∃ e, model.byDefault checks c w = (.ok (.error e), w))
    (h : model.call checks c w = (.ok (.ok value), w')) : Returns model c value := by
  rw [ModbusSlaveModel.call, ModbusSlaveModel.run, ModbusSlaveModel.method] at h
  cases hbody : model.implemented c with
  | some body =>
    rw [hbody] at h
    exact ⟨body, w.state, hbody, Except.ok.inj (congrArg Prod.fst h)⟩
  | none =>
    obtain ⟨e, he⟩ := hdefault { w with calls := w.calls ++ [(model.unit, c)] }
    rw [hbody] at h
    cases he.symm.trans h

/-- The computation comes to an end without a panic. -/
def Completes (x : SlaveM σ α) : Prop := ∀ w, ∃ a w', x w = (.ok a, w')

theorem completes_pure (a : α) : Completes (pure a : SlaveM σ α) := fun w => ⟨a, w, rfl⟩

theorem Completes.bind {x : SlaveM σ α} {f : α → SlaveM σ β} (hx : Completes x)
    (hf : ∀ a, Completes (f a)) : Completes (x >>= f) := by
  intro w
  obtain ⟨a, w₁, ha⟩ := hx w
  rw [SlaveM.bind_of_ok ha]
  exact hf a w₁

theorem completes_method (c : Call) {fallback : SlaveM σ (Except ModbusError c.Answer)}
    (h : Completes fallback) : Completes (model.method c fallback) := by
  unfold ModbusSlaveModel.method
  split
  · exact fun w => ⟨_, _, rfl⟩
  · exact h

/-- The default writes stay below 65536, or overflows are not checked. -/
theorem completes_writeEach {write : UInt16 → α → SlaveM σ (Except ModbusError Unit)}
    (hwrite : ∀ a v, Completes (write a v)) (address : UInt16) :
    ∀ (values : List α) (i : Nat),
      (checks = true → address.toNat + (i + values.length) ≤ 65536) →
        Completes (ModbusSlaveModel.writeEach checks write address i values)
  | [], _, _ => completes_pure _
  | value :: values, i, h => by
    have htarget : ∃ target, addU16 checks address (UInt16.ofNat i) = .ok target := by
      cases hchecks : checks with
      | false => exact ⟨_, rfl⟩
      | true =>
        have hfits := h hchecks
        rw [List.length_cons] at hfits
        have hi : (UInt16.ofNat i).toNat ≤ i := by
          rw [UInt16.toNat_ofNat']
          exact Nat.mod_le _ _
        exact ⟨_, addU16_of_lt (by omega)⟩
    obtain ⟨target, htarget⟩ := htarget
    intro w
    rw [ModbusSlaveModel.writeEach, htarget, SlaveM.bind_of_ok (SlaveM.lift_ok target w)]
    refine (hwrite target value).bind ?_ w
    intro result
    cases result with
    | error e => exact completes_pure _
    | ok _ =>
      refine completes_writeEach hwrite address values (i + 1) ?_
      intro hchecks
      have hfits := h hchecks
      rw [List.length_cons] at hfits
      omega

theorem completes_maskWrite (address andMask orMask : UInt16) :
    Completes (model.maskWrite address andMask orMask) := by
  refine (completes_method _ (completes_pure _)).bind ?_
  intro result
  rcases result with e | _ | ⟨current, rest⟩
  · exact completes_pure _
  · exact completes_pure _
  · exact completes_method _ (completes_pure _)

/-- The values of a default multiple write end before 65536. -/
def Call.Fits (checks : Bool) : Call → Prop
  | .writeMultipleCoils address values => checks = true → address.toNat + values.length ≤ 65536
  | .writeMultipleRegisters address values => checks = true → address.toNat + values.length ≤ 65536
  | _ => True

/-- A call completes: the model's own methods do not panic, and the defaults only overflow on values
that do not fit. -/
theorem completes_call {c : Call} (h : c.Fits checks) : Completes (model.call checks c) := by
  have hrun : Completes (model.run checks c) := by
    refine completes_method c ?_
    have single : ∀ c, Completes (model.method c (pure (.error .illegalFunction))) := fun c =>
      completes_method c (completes_pure _)
    cases c with
    | writeMultipleCoils address values =>
      exact completes_writeEach (fun _ _ => single _) _ _ _ (by rwa [Nat.zero_add])
    | writeMultipleRegisters address values =>
      exact completes_writeEach (fun _ _ => single _) _ _ _ (by rwa [Nat.zero_add])
    | maskWriteRegister address andMask orMask => exact completes_maskWrite _ _ _
    | _ => exact completes_pure _
  exact fun w => hrun _

/-- The computation of a method: it completes, passes nothing to the reply closure, and returns what
it can return. -/
def Fetches (x : SlaveM σ (Except ModbusError α)) (returned : α → Prop) : Prop :=
  ∀ w, ∃ r w', x w = (.ok r, w') ∧ w'.replies = w.replies ∧ ∀ value, r = .ok value → returned value

theorem fetches_call {c : Call} (h : c.Fits checks) :
    Fetches (model.call checks c) fun value =>
      ∃ w w', model.call checks c w = (.ok (.ok value), w') := by
  intro w
  obtain ⟨r, w', hcall⟩ := (completes_call h : Completes (model.call checks c)) w
  have hkept := replies_call model checks c w
  rw [hcall] at hkept
  refine ⟨r, w', hcall, hkept, ?_⟩
  rintro value rfl
  exact ⟨w, w', hcall⟩

theorem Fetches.imp {x : SlaveM σ (Except ModbusError α)} {returned returned' : α → Prop}
    (h : Fetches x returned) (himp : ∀ value, returned value → returned' value) :
    Fetches x returned' := by
  intro w
  obtain ⟨r, w', hx, hkept, hreturned⟩ := h w
  exact ⟨r, w', hx, hkept, fun value hr => himp value (hreturned value hr)⟩

/-- A write of the model: it succeeds or fails. -/
theorem fetches_write {c : Call} (h : c.Fits checks) :
    Fetches (model.call checks c) fun _ => True :=
  (fetches_call h).imp fun _ _ => trivial

/-- A read of the model: it fails, or the model's own method has returned. -/
theorem fetches_read {c : Call} (h : c.Fits checks)
    (hdefault : ∀ w, ∃ e, model.byDefault checks c w = (.ok (.error e), w)) :
    Fetches (model.call checks c) (Returns model c) := by
  refine (fetches_call h).imp ?_
  rintro value ⟨w, w', hcall⟩
  exact returns_of_call hdefault hcall

end Calls

/-! ## Outcomes -/

/-- The data of a reply to FC 17. -/
def serverIdData (unit : UInt8) (serverId : ServerId) : Bytes :=
  let serverIdBytes := if serverId.serverId.isEmpty then [unit] else serverId.serverId
  UInt8.ofNat (serverIdBytes.length + 1 + serverId.additionalData.length) :: serverIdBytes ++
    (if serverId.runIndicatorStatus then 0xff else 0x00) :: serverId.additionalData

/-- What the built-in handlers reply to a request. -/
inductive Produced (model : ModbusSlaveModel σ) (adu : ApplicationDataUnit) :
    ApplicationDataUnit → Prop
  | exception (code : ErrorCode) :
    Produced model adu { adu with fc := adu.fc ||| exceptionOffset, data := [code.asU8] }
  | coils {a n : UInt16} {values : List Bool} (hfc : adu.fc = 0x01 ∨ adu.fc = 0x02)
    (h1 : 1 ≤ n) (hn : n ≤ 0x07d0)
    (h : Returns model (.readCoils a n) values ∨ Returns model (.readDiscreteInputs a n) values) :
    Produced model adu
      { adu with data := UInt8.ofNat ((n.toNat + 7) / 8) :: (chunks 8 values).map packByte }
  | registers {a n : UInt16} {values : List UInt16}
    (hfc : adu.fc = 0x03 ∨ adu.fc = 0x04 ∨ adu.fc = 0x17) (h1 : 1 ≤ n) (hn : n ≤ 0x007d)
    (h : Returns model (.readHoldingRegisters a n) values ∨
      Returns model (.readInputRegisters a n) values) :
    Produced model adu { adu with data := UInt8.ofNat (n.toNat * 2) :: values.flatMap u16ToBe }
  | echo (h : (adu.fc = 0x05 ∨ adu.fc = 0x06) ∧ adu.data.length = 4 ∨
      adu.fc = 0x16 ∧ adu.data.length = 6) : Produced model adu adu
  | written (a n : UInt16) (hfc : adu.fc = 0x0f ∨ adu.fc = 0x10) :
    Produced model adu { adu with data := u16ToBe a ++ u16ToBe n }
  | serverId {serverId : ServerId} (hfc : adu.fc = 0x11) (h : Returns model .reportServerId serverId)
    (hmax : (serverIdData model.unit serverId).length ≤ 256) :
    Produced model adu { adu with data := serverIdData model.unit serverId }
  | identification {readDeviceIdCode objectId : UInt8} {identification : List (UInt8 × Bytes)}
    {data : Bytes} (hfc : adu.fc = 0x2b) (h : Returns model .readDeviceIdentification identification)
    (hdata : identificationData readDeviceIdCode objectId identification = .ok data) :
    Produced model adu { adu with data := data }

/-- A reply has the transaction and the unit of its request, and its function code or the exception
code of it. -/
theorem Produced.header {model : ModbusSlaveModel σ} {adu adu' : ApplicationDataUnit}
    (h : Produced model adu adu') :
    adu'.transaction = adu.transaction ∧ adu'.unit = adu.unit ∧
      (adu'.fc = adu.fc ∨ adu'.fc = adu.fc ||| 0x80) := by
  cases h with
  | exception => exact ⟨rfl, rfl, .inr rfl⟩
  | _ => exact ⟨rfl, rfl, .inl rfl⟩

/-- How a handler ends: when it panics, when it ignores the request, and what it replies. What it has
sent before is `replies`. -/
inductive Outcome (ctx : Context) (response : SlaveResponseFn σ) (panics ignored : Prop)
    (produced : ApplicationDataUnit → Prop) (replies : List Bytes) :
    Except Panic (Except ModbusError Unit) × World σ → Prop
  | panicked {p : Panic} {w' : World σ} (h : panics) (hw : w'.replies = replies) :
    Outcome ctx response panics ignored produced replies (.error p, w')
  | ignored {w' : World σ} (hp : ¬ panics) (h : ignored) (hw : w'.replies = replies) :
    Outcome ctx response panics ignored produced replies (.ok (.ok ()), w')
  | replied {adu : ApplicationDataUnit} {w' : World σ} (hp : ¬ panics) (hi : ¬ ignored)
    (h : produced adu) (hw : w'.replies = replies) :
    Outcome ctx response panics ignored produced replies (response (ctx.encode adu) w')

section Handlers

variable {ctx : Context} {model : ModbusSlaveModel σ} {adu : ApplicationDataUnit}
  {response : SlaveResponseFn σ} {panics ignored : Prop} {produced : ApplicationDataUnit → Prop}

/-- A computation that always replies. -/
def Replies (ctx : Context) (response : SlaveResponseFn σ) (produced : ApplicationDataUnit → Prop)
    (replies : List Bytes) (result : Except Panic (Except ModbusError Unit) × World σ) : Prop :=
  Outcome ctx response False False produced replies result

theorem Replies.of_eq {adu' : ApplicationDataUnit} {w : World σ} {replies : List Bytes}
    (h : produced adu') (hw : w.replies = replies) :
    Replies ctx response produced replies (response (ctx.encode adu') w) :=
  .replied not_false not_false h hw

theorem Outcome.imp {panics' ignored' : Prop} {replies : List Bytes}
    {result : Except Panic (Except ModbusError Unit) × World σ}
    (h : Outcome ctx response panics ignored produced replies result) (hp : panics ↔ panics')
    (hi : ignored ↔ ignored') : Outcome ctx response panics' ignored' produced replies result := by
  cases h with
  | panicked h hw => exact .panicked (hp.mp h) hw
  | ignored hp' h hw => exact .ignored (mt hp.mpr hp') (hi.mp h) hw
  | replied hp' hi' h hw => exact .replied (mt hp.mpr hp') (mt hi.mpr hi') h hw

theorem Replies.outcome {replies : List Bytes} {result : Except Panic (Except ModbusError Unit) × World σ}
    (hp : ¬ panics) (hi : ¬ ignored) (h : Replies ctx response produced replies result) :
    Outcome ctx response panics ignored produced replies result := by
  cases h with
  | panicked h => exact h.elim
  | ignored _ h => exact h.elim
  | replied _ _ h hw => exact .replied hp hi h hw

/-- The end of a handler, from its decision and its own part. -/
theorem outcome_act {accepted : α → Prop} {d : Except Panic (Decision α)}
    (hd : Decided panics ignored accepted d)
    (hexception : ∀ code : ErrorCode,
      produced { adu with fc := adu.fc ||| exceptionOffset, data := [code.asU8] })
    {handle : α → SlaveM σ (Except ModbusError Unit)} {w : World σ}
    (hhandle : ∀ a, ¬ ignored → accepted a → Replies ctx response produced w.replies (handle a w)) :
    Outcome ctx response panics ignored produced w.replies
      ((SlaveM.lift d >>= fun d => d |> act ctx adu response handle) w) := by
  cases hd with
  | panicked p h => exact .panicked h rfl
  | ignored hp h => exact .ignored hp h rfl
  | refused code hp hi => exact .replied hp hi (hexception _) rfl
  | accepted a hp hi h => exact (hhandle a hi h).outcome hp hi

/-- The computation of a method, answered. -/
theorem replies_answer {x : SlaveM σ (Except ModbusError α)} {returned : α → Prop}
    (hx : Fetches x returned)
    (hexception : ∀ code : ErrorCode,
      produced { adu with fc := adu.fc ||| exceptionOffset, data := [code.asU8] })
    {ok : α → SlaveM σ (Except ModbusError Unit)} {w : World σ} {replies : List Bytes}
    (hw : w.replies = replies)
    (hok : ∀ value w', returned value → w'.replies = replies →
      Replies ctx response produced replies (ok value w')) :
    Replies ctx response produced replies
      ((x >>= fun result => result |> answer ctx adu response ok) w) := by
  obtain ⟨result, w', hcall, hkept, hreturned⟩ := hx w
  rw [SlaveM.bind_of_ok hcall]
  cases result with
  | ok value => exact hok value w' (hreturned value rfl) (hkept.trans hw)
  | error e => exact .of_eq (hexception _) (hkept.trans hw)

/-- FC 1 to FC 4. -/
theorem outcome_handleRead {limit : UInt16} {ranges : List (UInt16 × UInt16)}
    {read : UInt16 → UInt16 → SlaveM σ (Except ModbusError (List α))}
    {returned : UInt16 → UInt16 → List α → Prop} (hread : ∀ a n, Fetches (read a n) (returned a n))
    {pack : List α → UInt16 → Except Panic Bytes} {packed : List α → UInt16 → Bytes}
    (hpack : ∀ values n, n ≤ limit → pack values n = .ok (packed values n))
    (hexception : ∀ code : ErrorCode,
      produced { adu with fc := adu.fc ||| exceptionOffset, data := [code.asU8] })
    (hproduced : ∀ a n values, 1 ≤ n → n ≤ limit → returned a n values →
      produced { adu with data := packed values n }) (w : World σ) :
    Outcome ctx response
      (ctx.checks = true ∧ ∃ a n : UInt16, adu.data = u16ToBe a ++ u16ToBe n ∧
        (1 ≤ n ∧ n ≤ limit) ∧ 65536 ≤ a.toNat + n.toNat)
      (adu.data.length ≠ 4) produced w.replies
      (handleRead ctx adu response limit ranges read pack w) := by
  refine outcome_act (readWindow_decided ctx.checks limit ranges adu.data) hexception ?_
  rintro ⟨a, n⟩ - hn
  refine replies_answer (hread a n) hexception rfl ?_
  intro values w' hvalues hw
  have hreply := hpack values n hn.2
  rw [hreply, SlaveM.bind_of_ok (SlaveM.lift_ok _ w')]
  exact .of_eq (hproduced a n values hn.1 hn.2 hvalues) hw

/-- FC 5, FC 6 and FC 22. -/
theorem outcome_handleEcho {decision : Bytes → Except Panic (Decision α)} {wrong : Prop}
    (hdecision : Decided False wrong (fun _ => True) (decision adu.data))
    {write : α → SlaveM σ (Except ModbusError Unit)}
    (hwrite : ∀ a, Fetches (write a) fun _ => True)
    (hexception : ∀ code : ErrorCode,
      produced { adu with fc := adu.fc ||| exceptionOffset, data := [code.asU8] })
    (hproduced : ¬ wrong → produced adu) (w : World σ) :
    Outcome ctx response False wrong produced w.replies
      (handleEcho ctx adu response decision write w) := by
  refine outcome_act hdecision hexception ?_
  intro a hright _
  exact replies_answer (hwrite a) hexception rfl fun _ w' _ hw => .of_eq (hproduced hright) hw

/-- FC 15 and FC 16. -/
theorem outcome_handleWrite {limit : UInt16} {byteCount : UInt16 → Except Panic UInt16}
    (count : Nat → Nat)
    (hbyteCount : ∀ n : UInt16, 1 ≤ n → n ≤ limit →
      byteCount n = .ok (UInt16.ofNat (count n.toNat)) ∧ 0 < count n.toNat ∧ count n.toNat < 256)
    {ranges : List (UInt16 × UInt16)} {values : Bytes → UInt16 → Except Panic (List α)}
    (hvalues : ∀ n : UInt16, adu.data.length = 5 + count n.toNat →
      ∃ vs, values adu.data n = .ok vs ∧ vs.length = n.toNat)
    {write : UInt16 → List α → SlaveM σ (Except ModbusError Unit)}
    (hwrite : ∀ a vs, (ctx.checks = true → a.toNat + vs.length ≤ 65536) →
      Fetches (write a vs) fun _ => True)
    (hexception : ∀ code : ErrorCode,
      produced { adu with fc := adu.fc ||| exceptionOffset, data := [code.asU8] })
    (hproduced : ∀ a n : UInt16, produced { adu with data := u16ToBe a ++ u16ToBe n })
    (w : World σ) :
    Outcome ctx response
      (ctx.checks = true ∧ ∃ (a n : UInt16) (payload : Bytes), adu.data = writeData a n payload ∧
        payload.length = count n.toNat ∧ (1 ≤ n ∧ n ≤ limit) ∧ 65536 ≤ a.toNat + n.toNat)
      (¬ (6 ≤ adu.data.length ∧ adu.data.length = 5 + (adu.data.getD 4 0).toNat)) produced w.replies
      (handleWrite ctx adu response limit byteCount ranges values write w) := by
  refine outcome_act (writeWindow_decided hbyteCount ranges adu.data) hexception ?_
  rintro ⟨a, n⟩ - ⟨-, hlength, hfits⟩
  obtain ⟨vs, hvs, hlen⟩ := hvalues n hlength
  have hdone : ctx.checks = true → a.toNat + vs.length ≤ 65536 := by
    intro hchecks
    have : ¬ 65536 ≤ a.toNat + n.toNat := fun h => hfits ⟨hchecks, h⟩
    omega
  show Replies _ _ _ _ ((SlaveM.lift (values adu.data n) >>= _) w)
  rw [hvs, SlaveM.bind_of_ok (SlaveM.lift_ok vs w)]
  exact replies_answer (hwrite a vs hdone) hexception rfl fun _ w' _ hw => .of_eq (hproduced a n) hw

end Handlers

/-! ## The dispatch -/

section Dispatch

variable (ctx : Context) (model : ModbusSlaveModel σ) (adu : ApplicationDataUnit)
  (response : SlaveResponseFn σ)

/-- The request alone says how the handler ends, and it replies what is produced. -/
def Ends (handler : SlaveM σ (Except ModbusError Unit)) : Prop :=
  ∀ w, Outcome ctx response (ctx.checks = true ∧ Overflows adu.fc adu.data)
    (Ignored adu.fc adu.data) (Produced model adu) w.replies (handler w)

/-- No address of the request is followed by a length. -/
theorem not_overflows {fc : UInt8} {data : Bytes} (checks : Bool)
    (hfc : fc = 0x05 ∨ fc = 0x06 ∨ fc = 0x11 ∨ fc = 0x16 ∨ fc = 0x2b ∨ ¬ BuiltIn fc) :
    ¬ (checks = true ∧ Overflows fc data) := by
  rintro ⟨-, hover⟩
  have hcode := overflows_code hover
  unfold BuiltIn at hfc
  rcases hcode with rfl | rfl | rfl | rfl | rfl | rfl | rfl <;> revert hfc <;> decide

/-- FC 17. -/
theorem ends_handleFc17 (hfc : adu.fc = 0x11) :
    Ends ctx model adu response (handleFc17 ctx model adu response) := by
  intro w
  have hpanics : ¬ (ctx.checks = true ∧ Overflows adu.fc adu.data) :=
    not_overflows _ (.inr (.inr (.inl hfc)))
  have hignored : Ignored adu.fc adu.data ↔ adu.data.length ≠ 0 := by
    rw [hfc, ignored_iff_serverId]
  unfold handleFc17
  by_cases hdata : adu.data.isEmpty = true
  · have hfetch : Fetches (model.call ctx.checks .reportServerId) (Returns model .reportServerId) :=
      fetches_read trivial fun w => ⟨_, rfl⟩
    have hempty : ¬ adu.data.length ≠ 0 := fun h =>
      h (List.length_eq_zero_iff.mpr (List.isEmpty_iff.mp hdata))
    rw [if_neg (not_not_intro hdata)]
    refine Replies.outcome hpanics (mt hignored.mp hempty) (replies_answer hfetch .exception rfl ?_)
    intro serverId w' hreturned hw
    have hlength : (serverIdData model.unit serverId).length =
        ((if serverId.serverId.isEmpty then [model.unit] else serverId.serverId).length + 1 +
          serverId.additionalData.length) + 1 := by
      simp only [serverIdData, List.length_cons, List.length_append]
      omega
    by_cases hlong : (if serverId.serverId.isEmpty then [model.unit] else serverId.serverId).length +
        1 + serverId.additionalData.length > 255
    · rw [if_pos hlong]
      exact .of_eq (.exception _) hw
    · rw [if_neg hlong]
      exact .of_eq (.serverId hfc hreturned (by omega)) hw
  · rw [if_pos hdata]
    refine .ignored hpanics (hignored.mpr ?_) rfl
    exact fun h => hdata (List.isEmpty_iff.mpr (List.length_eq_zero_iff.mp h))

/-- FC 23. -/
theorem ends_handleFc23 (hfc : adu.fc = 0x17) :
    Ends ctx model adu response (handleFc23 ctx model adu response) := by
  intro w
  refine (outcome_act (readWrite_decided _ _ adu.data) .exception ?_).imp
    (by rw [hfc, overflows_readWrite]) (by rw [hfc, ignored_iff_readWrite])
  intro r _ ⟨hwithin, hlength, hfits⟩
  have hwrite : r.writeLength.toNat ≤ 121 := UInt16.le_iff_toNat_le.mp hwithin.2.2
  have hread : r.readLength.toNat ≤ 125 := UInt16.le_iff_toNat_le.mp hwithin.1.2
  have hend : ctx.checks = true → r.writeAddress.toNat + r.writeLength.toNat < 65536 := by
    intro hchecks
    by_contra hover
    exact hfits ⟨hchecks, .inr (by omega)⟩
  have hvalues : registerValues 9 adu.data r.writeLength = .ok _ :=
    registerValues_eq (by omega)
  have hfree : ¬ (ctx.checks = true ∧
      65536 ≤ r.writeAddress.toNat + r.writeLength.toNat) := fun h => hfits ⟨h.1, .inr h.2⟩
  obtain ⟨addresses, hlock⟩ := writeAddresses_ok hfree
  rw [hvalues, SlaveM.bind_of_ok (SlaveM.lift_ok _ w), hlock, SlaveM.bind_of_ok (SlaveM.lift_ok _ w)]
  refine replies_answer (fetches_write ?_) .exception rfl ?_
  · intro hchecks
    have hend := hend hchecks
    rw [List.length_map, List.length_range]
    omega
  · intro _ w₁ _ hw₁
    have hfetch : Fetches (model.call ctx.checks (.readHoldingRegisters r.readAddress r.readLength))
        (Returns model (.readHoldingRegisters r.readAddress r.readLength)) :=
      fetches_read trivial fun w => ⟨_, rfl⟩
    refine replies_answer hfetch .exception hw₁ ?_
    intro registers w₂ hreturned hw₂
    rw [packRegisters_eq (by omega), SlaveM.bind_of_ok (SlaveM.lift_ok _ w₂)]
    exact .of_eq (.registers (.inr (.inr hfc)) hwithin.1.1 hwithin.1.2 (.inl hreturned)) hw₂

/-- The reply of FC 43 to the identification of the model. -/
def identify (ctx : Context) (adu : ApplicationDataUnit) (response : SlaveResponseFn σ)
    (readDeviceIdCode objectId : UInt8) (identification : List (UInt8 × Bytes)) :
    SlaveM σ (Except ModbusError Unit) :=
  match identificationData readDeviceIdCode objectId identification with
  | .error code => responseError ctx adu response (getErrorByCode code)
  | .ok data => reply ctx adu response data

/-- FC 43 refuses a request, or asks the model. -/
theorem handleFc43_14_cases :
    (∃ error, handleFc43_14 ctx model adu response = responseError ctx adu response error) ∨
      ∃ readDeviceIdCode objectId, handleFc43_14 ctx model adu response =
        (model.call ctx.checks .readDeviceIdentification >>= fun result =>
          result |> answer ctx adu response (identify ctx adu response readDeviceIdCode objectId)) := by
  unfold handleFc43_14
  split
  next =>
    split
    · exact .inl ⟨_, rfl⟩
    · split
      · exact .inl ⟨_, rfl⟩
      · exact .inr ⟨_, _, rfl⟩
  next => exact .inl ⟨_, rfl⟩

/-- FC 43 replies to every request. -/
theorem ends_handleFc43_14 (hfc : adu.fc = 0x2b) :
    Ends ctx model adu response (handleFc43_14 ctx model adu response) := by
  intro w
  refine Replies.outcome (not_overflows _ (.inr (.inr (.inr (.inr (.inl hfc))))))
    (not_ignored (.inr hfc)) ?_
  obtain ⟨error, heq⟩ | ⟨readDeviceIdCode, objectId, heq⟩ :=
    handleFc43_14_cases ctx model adu response
  · rw [heq]
    exact .of_eq (.exception _) rfl
  · have hfetch : Fetches (model.call ctx.checks .readDeviceIdentification)
        (Returns model .readDeviceIdentification) :=
      fetches_read trivial fun w => ⟨_, rfl⟩
    rw [heq]
    refine replies_answer hfetch .exception rfl ?_
    intro identification w' hreturned hw
    cases hdata : identificationData readDeviceIdCode objectId identification with
    | error code =>
      rw [identify, hdata]
      exact .of_eq (.exception _) hw
    | ok data =>
      rw [identify, hdata]
      exact .of_eq (.identification hfc hreturned hdata) hw

/-- The request is for a custom handler. -/
def Custom (customFcs : UInt8 → Option (CustomFunctionCode σ)) (fc : UInt8) : Prop :=
  ¬ BuiltIn fc ∧ ((customFcs fc).bind (·.handle)).isSome

theorem ends_readBits (hfc : adu.fc = 0x01 ∨ adu.fc = 0x02)
    {ranges : List (UInt16 × UInt16)}
    {read : UInt16 → UInt16 → SlaveM σ (Except ModbusError (List Bool))}
    (hread : ∀ a n, Fetches (read a n) fun values =>
      Returns model (.readCoils a n) values ∨ Returns model (.readDiscreteInputs a n) values) :
    Ends ctx model adu response
      (handleRead ctx adu response 0x07d0 ranges read (packCoils ctx.checks)) := by
  intro w
  have hpack : ∀ values n, n ≤ 0x07d0 → packCoils ctx.checks values n =
      .ok (UInt8.ofNat ((n.toNat + 7) / 8) :: (chunks 8 values).map packByte) := by
    intro values n hn
    have hn : n.toNat ≤ 2000 := UInt16.le_iff_toNat_le.mp hn
    exact packCoils_eq (by omega)
  refine (outcome_handleRead hread hpack .exception ?_ w).imp ?_ ?_
  · exact fun a n values h1 hn hvalues => .coils hfc h1 hn hvalues
  · rw [overflows_readBits hfc]
  · exact (ignored_iff_four (hfc.elim .inl (.inr ∘ .inl))).symm

theorem ends_readRegisters (hfc : adu.fc = 0x03 ∨ adu.fc = 0x04)
    {ranges : List (UInt16 × UInt16)}
    {read : UInt16 → UInt16 → SlaveM σ (Except ModbusError (List UInt16))}
    (hread : ∀ a n, Fetches (read a n) fun values =>
      Returns model (.readHoldingRegisters a n) values ∨
        Returns model (.readInputRegisters a n) values) :
    Ends ctx model adu response
      (handleRead ctx adu response 0x007d ranges read (packRegisters ctx.checks)) := by
  intro w
  have hpack : ∀ values n, n ≤ 0x007d → packRegisters ctx.checks values n =
      .ok (UInt8.ofNat (n.toNat * 2) :: values.flatMap u16ToBe) := by
    intro values n hn
    have hn : n.toNat ≤ 125 := UInt16.le_iff_toNat_le.mp hn
    exact packRegisters_eq (by omega)
  refine (outcome_handleRead hread hpack .exception ?_ w).imp ?_ ?_
  · exact fun a n values h1 hn hvalues =>
      .registers (hfc.elim .inl (.inr ∘ .inl)) h1 hn hvalues
  · rw [overflows_readRegisters hfc]
  · exact (ignored_iff_four (.inr (.inr (hfc.elim .inl (.inr ∘ .inl))))).symm

theorem ends_handleFc15 (hfc : adu.fc = 0x0f) :
    Ends ctx model adu response (handleFc15 ctx model adu response) := by
  intro w
  have hcount : ∀ n : UInt16, 1 ≤ n → n ≤ 0x07b0 →
      (do return (← addU16 ctx.checks n 7) / 8) = .ok (UInt16.ofNat ((n.toNat + 7) / 8)) ∧
        0 < (n.toNat + 7) / 8 ∧ (n.toNat + 7) / 8 < 256 := by
    intro n h1 hn
    have h1 : 1 ≤ n.toNat := UInt16.le_iff_toNat_le.mp h1
    have hn : n.toNat ≤ 1968 := UInt16.le_iff_toNat_le.mp hn
    exact ⟨coilByteCount_eq (by omega), by omega, by omega⟩
  refine (outcome_handleWrite (fun n => (n + 7) / 8) hcount ?_ ?_ .exception
    (fun a n => .written a n (.inl hfc)) w).imp ?_ ?_
  · intro n hlen
    refine ⟨_, coilValues_eq (by omega), ?_⟩
    rw [List.length_map, List.length_range]
  · exact fun a vs hfits => fetches_write hfits
  · rw [hfc, overflows_writeBits]
  · rw [hfc, ignored_iff_write (.inl rfl)]

theorem ends_handleFc16 (hfc : adu.fc = 0x10) :
    Ends ctx model adu response (handleFc16 ctx model adu response) := by
  intro w
  have hcount : ∀ n : UInt16, 1 ≤ n → n ≤ 0x007b →
      mulU16 ctx.checks n 2 = .ok (UInt16.ofNat (n.toNat * 2)) ∧
        0 < n.toNat * 2 ∧ n.toNat * 2 < 256 := by
    intro n h1 hn
    have h1 : 1 ≤ n.toNat := UInt16.le_iff_toNat_le.mp h1
    obtain ⟨hmul, hlt⟩ := registerCount ctx.checks hn
    exact ⟨hmul, by omega, hlt⟩
  refine (outcome_handleWrite (fun n => n * 2) hcount ?_ ?_ .exception
    (fun a n => .written a n (.inr hfc)) w).imp ?_ ?_
  · intro n hlen
    refine ⟨_, registerValues_eq (by omega), ?_⟩
    rw [List.length_map, List.length_range]
  · exact fun a vs hfits => fetches_write hfits
  · rw [hfc, overflows_writeRegisters]
  · rw [hfc, ignored_iff_write (.inr rfl)]

theorem ends_handleEcho {decision : Bytes → Except Panic (Decision α)} {wrong : Prop}
    (hfc : (adu.fc = 0x05 ∨ adu.fc = 0x06) ∧ (wrong ↔ adu.data.length ≠ 4) ∨
      adu.fc = 0x16 ∧ (wrong ↔ adu.data.length ≠ 6))
    (hdecision : Decided False wrong (fun _ => True) (decision adu.data))
    {write : α → SlaveM σ (Except ModbusError Unit)}
    (hwrite : ∀ a, Fetches (write a) fun _ => True) :
    Ends ctx model adu response (handleEcho ctx adu response decision write) := by
  intro w
  have hcode : adu.fc = 0x05 ∨ adu.fc = 0x06 ∨ adu.fc = 0x16 := by tauto
  have hpanics : False ↔ ctx.checks = true ∧ Overflows adu.fc adu.data :=
    (iff_false_intro (not_overflows _ (by tauto))).symm
  refine (outcome_handleEcho hdecision hwrite .exception ?_ w).imp hpanics ?_
  · intro hright
    refine .echo (hfc.imp (fun h => ⟨h.1, ?_⟩) fun h => ⟨h.1, ?_⟩)
    · exact not_not.mp fun h' => hright (h.2.mpr h')
    · exact not_not.mp fun h' => hright (h.2.mpr h')
  · obtain ⟨hfc, hwrong⟩ | ⟨hfc, hwrong⟩ := hfc
    · rw [hwrong, ignored_iff_four (by tauto)]
    · rw [hwrong, hfc, ignored_iff_mask]

/-- A function code without a handler of its own is refused. -/
theorem dispatch_other (customFcs : UInt8 → Option (CustomFunctionCode σ))
    (h : ¬ BuiltIn adu.fc) :
    dispatch ctx customFcs model adu response = handleCustom ctx customFcs adu response := by
  simp only [BuiltIn, not_or] at h
  simp only [dispatch, h, ↓reduceIte]

/-- **How a built-in handler ends**: the request alone says whether it panics, ignores the request or
replies, and every reply is one of those produced. -/
theorem dispatch_outcome (customFcs : UInt8 → Option (CustomFunctionCode σ))
    (hcustom : ¬ Custom customFcs adu.fc) :
    Ends ctx model adu response (dispatch ctx customFcs model adu response) := by
  have hread : ∀ {c : Call}, c.Fits ctx.checks →
      (∀ w, ∃ e, model.byDefault ctx.checks c w = (.ok (.error e), w)) →
      Fetches (model.call ctx.checks c) (Returns model c) := fetches_read
  have hwrite : ∀ {c : Call}, c.Fits ctx.checks → Fetches (model.call ctx.checks c) fun _ => True :=
    fetches_write
  by_cases hcode : BuiltIn adu.fc
  · have hends : ∀ handler : SlaveM σ (Except ModbusError Unit),
        dispatch ctx customFcs model adu response = handler → Ends ctx model adu response handler →
          Ends ctx model adu response (dispatch ctx customFcs model adu response) :=
      fun handler heq h => heq ▸ h
    rcases hcode with h | h | h | h | h | h | h | h | h | h | h | h
    · refine hends (handleFc1 ctx model adu response) (by unfold dispatch; rw [h]; rfl) ?_
      refine ends_readBits _ _ _ _ (.inl h) fun a n => ?_
      exact Fetches.imp (hread trivial fun w => ⟨_, rfl⟩) fun _ => .inl
    · refine hends (handleFc2 ctx model adu response) (by unfold dispatch; rw [h]; rfl) ?_
      refine ends_readBits _ _ _ _ (.inr h) fun a n => ?_
      exact Fetches.imp (hread trivial fun w => ⟨_, rfl⟩) fun _ => .inr
    · refine hends (handleFc3 ctx model adu response) (by unfold dispatch; rw [h]; rfl) ?_
      refine ends_readRegisters _ _ _ _ (.inl h) fun a n => ?_
      exact Fetches.imp (hread trivial fun w => ⟨_, rfl⟩) fun _ => .inl
    · refine hends (handleFc4 ctx model adu response) (by unfold dispatch; rw [h]; rfl) ?_
      refine ends_readRegisters _ _ _ _ (.inr h) fun a n => ?_
      exact Fetches.imp (hread trivial fun w => ⟨_, rfl⟩) fun _ => .inr
    · refine hends (handleFc5 ctx model adu response) (by unfold dispatch; rw [h]; rfl) ?_
      exact ends_handleEcho _ _ _ _ (.inl ⟨.inl h, Iff.rfl⟩) (coilWrite_decided _ _)
        fun _ => hwrite trivial
    · refine hends (handleFc6 ctx model adu response) (by unfold dispatch; rw [h]; rfl) ?_
      exact ends_handleEcho _ _ _ _ (.inl ⟨.inr h, Iff.rfl⟩) (registerWrite_decided _ _)
        fun _ => hwrite trivial
    · refine hends (handleFc15 ctx model adu response) (by unfold dispatch; rw [h]; rfl) ?_
      exact ends_handleFc15 _ _ _ _ h
    · refine hends (handleFc16 ctx model adu response) (by unfold dispatch; rw [h]; rfl) ?_
      exact ends_handleFc16 _ _ _ _ h
    · refine hends (handleFc17 ctx model adu response) (by unfold dispatch; rw [h]; rfl) ?_
      exact ends_handleFc17 _ _ _ _ h
    · refine hends (handleFc22 ctx model adu response) (by unfold dispatch; rw [h]; rfl) ?_
      exact ends_handleEcho _ _ _ _ (.inr ⟨h, Iff.rfl⟩) (registerMask_decided _ _)
        fun _ => hwrite trivial
    · refine hends (handleFc23 ctx model adu response) (by unfold dispatch; rw [h]; rfl) ?_
      exact ends_handleFc23 _ _ _ _ h
    · refine hends (handleFc43_14 ctx model adu response) (by unfold dispatch; rw [h]; rfl) ?_
      exact ends_handleFc43_14 _ _ _ _ h
  · intro w
    have hnone : (customFcs adu.fc).bind (·.handle) = none :=
      Option.not_isSome_iff_eq_none.mp fun h => hcustom ⟨hcode, h⟩
    have hrefused : dispatch ctx customFcs model adu response =
        responseError ctx adu response (getErrorByCode .illegalFunction) := by
      rw [dispatch_other _ _ _ _ _ hcode, handleCustom, hnone]
    rw [hrefused]
    exact .replied (not_overflows _ (by tauto)) (not_ignored (.inl hcode)) (.exception _) rfl

end Dispatch

end RsModbus.Slave
