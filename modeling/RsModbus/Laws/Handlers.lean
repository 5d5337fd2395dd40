import RsModbus.Laws.Packing

/-!
# What handlers do to the world

Every handler calls the model at most once for each method it needs, and replying and panicking call
nothing. `Keeps` is closed under the constructions handlers are made of, and with it the calls of a
handler follow from its decision alone (`calls_handleRead`, `calls_handleWrite`). On a request it
accepts a handler is a call and a reply (`handleRead_accepts` and so on).
-/

namespace RsModbus.Slave

variable {σ α β γ : Type}

/-! ## Computations that keep a view of the world -/

/-- The computation changes nothing of the view. -/
def Keeps (view : World σ → γ) (x : SlaveM σ α) : Prop := ∀ w, view (x w).2 = view w

/-- The computation makes no call. -/
abbrev KeepsCalls (x : SlaveM σ α) : Prop := Keeps World.calls x

section Keeps

variable {view : World σ → γ}

theorem keeps_pure (a : α) : Keeps view (pure a : SlaveM σ α) := fun _ => rfl

theorem keeps_lift (x : Except Panic α) : Keeps view (SlaveM.lift x : SlaveM σ α) := fun _ => rfl

/-- What a sequence leaves of the view is what its first part leaves, when the rest keeps it. -/
theorem view_bind {x : SlaveM σ α} {f : α → SlaveM σ β} (hf : ∀ a, Keeps view (f a))
    (w : World σ) : view ((x >>= f) w).2 = view (x w).2 := by
  rcases hx : x w with ⟨_ | a, w'⟩
  · rw [SlaveM.bind_of_error hx]
  · rw [SlaveM.bind_of_ok hx]
    exact hf a w'

theorem Keeps.bind {x : SlaveM σ α} {f : α → SlaveM σ β} (hx : Keeps view x)
    (hf : ∀ a, Keeps view (f a)) : Keeps view (x >>= f) :=
  fun w => (view_bind hf w).trans (hx w)

end Keeps

theorem keepsCalls_sendReply (ctx : Context) (data : Bytes) :
    KeepsCalls (sendReply ctx data : SlaveM σ _) := fun _ => rfl

section Model

variable (m : ModbusSlaveModel σ) (checks : Bool) {view : World σ → γ}
  (hview : ∀ (w : World σ) s, view { w with state := s } = view w)

include hview in
theorem keeps_method (c : Call) {fallback : SlaveM σ (Except ModbusError c.Answer)}
    (h : Keeps view fallback) : Keeps view (m.method c fallback) := by
  unfold ModbusSlaveModel.method
  split
  · exact fun w => hview w _
  · exact h

theorem keeps_writeEach {write : UInt16 → α → SlaveM σ (Except ModbusError Unit)}
    (hwrite : ∀ a v, Keeps view (write a v)) (address : UInt16) : ∀ (values : List α) (i : Nat),
    Keeps view (ModbusSlaveModel.writeEach checks write address i values)
  | [], _ => keeps_pure _
  | value :: values, i => by
    refine (keeps_lift _).bind fun target => (hwrite target value).bind ?_
    intro result
    cases result with
    | ok _ => exact keeps_writeEach hwrite address values (i + 1)
    | error e => exact keeps_pure _

include hview in
theorem keeps_maskWrite (address andMask orMask : UInt16) :
    Keeps view (m.maskWrite address andMask orMask) := by
  refine (keeps_method m hview _ (keeps_pure _)).bind ?_
  intro result
  rcases result with e | _ | ⟨current, rest⟩
  · exact keeps_pure _
  · exact keeps_pure _
  · exact keeps_method m hview _ (keeps_pure _)

include hview in
/-- A method changes the state behind the models only; its own calls of other methods are no calls
of a handler. -/
theorem keeps_run (c : Call) : Keeps view (m.run checks c) := by
  refine keeps_method m hview c ?_
  have single : ∀ c, Keeps view (m.method c (pure (.error .illegalFunction))) := fun c =>
    keeps_method m hview c (keeps_pure _)
  cases c with
  | writeMultipleCoils address values => exact keeps_writeEach checks (fun _ _ => single _) _ _ _
  | writeMultipleRegisters address values =>
    exact keeps_writeEach checks (fun _ _ => single _) _ _ _
  | maskWriteRegister address andMask orMask => exact keeps_maskWrite m hview _ _ _
  | _ => exact keeps_pure _

/-- A handler's call is one call. -/
theorem calls_call (c : Call) (w : World σ) :
    (m.call checks c w).2.calls = w.calls ++ [(m.unit, c)] := by
  have hrun : KeepsCalls (m.run checks c) := keeps_run m checks (fun _ _ => rfl) c
  exact hrun _

/-- A method that the model implements. -/
theorem call_of_implemented {c : Call} {body : σ → Except ModbusError c.Answer × σ}
    (hbody : m.implemented c = some body) (w : World σ) : m.call checks c w =
      (.ok (body w.state).1, ⟨(body w.state).2, w.calls ++ [(m.unit, c)], w.replies⟩) := by
  rw [ModbusSlaveModel.call, ModbusSlaveModel.run, ModbusSlaveModel.method, hbody]

theorem replies_call (c : Call) (w : World σ) : (m.call checks c w).2.replies = w.replies := by
  have hrun : Keeps World.replies (m.run checks c) := keeps_run m checks (fun _ _ => rfl) c
  exact hrun _

end Model

/-! ## Decisions on well-formed requests -/

section Decisions

variable {checks : Bool} {limit a n : UInt16} {ranges : List (UInt16 × UInt16)}

theorem u16At_toBe (x : UInt16) (rest : Bytes) : u16At (u16ToBe x ++ rest) 0 = .ok x :=
  congrArg Except.ok (u16FromBe_toBe x)

/-- The checks of FC 1 to FC 4 up to the quantity. -/
theorem readWindow_words : readWindow checks limit ranges (u16ToBe a ++ u16ToBe n) =
    if ¬ (1 ≤ n ∧ n ≤ limit) then .ok (.refuse .illegalDataValue)
    else do
      if ← checkWindow checks a n ranges then return .accept (a, n)
      else return .refuse .illegalDataAddress := by
  have haddress : u16At (u16ToBe a ++ u16ToBe n) 0 = .ok a := u16At_toBe a _
  have hlength : u16At (u16ToBe a ++ u16ToBe n) 2 = .ok n := u16At_toBe n []
  have hlen : ¬ (u16ToBe a ++ u16ToBe n).length ≠ 4 := not_not_intro rfl
  rw [readWindow, if_neg hlen, haddress, hlength]
  rfl

/-- A read request within the limit is decided by the window check. -/
theorem readWindow_eq (h1 : 1 ≤ n) (hn : n ≤ limit) :
    readWindow checks limit ranges (u16ToBe a ++ u16ToBe n) = do
      if ← checkWindow checks a n ranges then return .accept (a, n)
      else return .refuse .illegalDataAddress := by
  rw [readWindow_words, if_neg (not_not_intro ⟨h1, hn⟩)]

theorem toNat_byteCount {count : Nat} (h : count < 256) : (UInt8.ofNat count).toNat = count :=
  UInt8.toNat_ofNat_of_lt' h

theorem toUInt16_byteCount {count : Nat} (h : count < 256) :
    (UInt8.ofNat count).toUInt16 = UInt16.ofNat count := by
  apply UInt16.toNat_inj.mp
  rw [UInt8.toNat_toUInt16, toNat_byteCount h,
    UInt16.toNat_ofNat_of_lt' (Nat.lt_trans h (by decide))]

/-- The data of an FC 15 or FC 16 request. -/
def writeData (a n : UInt16) (payload : Bytes) : Bytes :=
  u16ToBe a ++ u16ToBe n ++ [UInt8.ofNat payload.length] ++ payload

theorem length_writeData (a n : UInt16) (payload : Bytes) :
    (writeData a n payload).length = 5 + payload.length := by
  rw [writeData, List.length_append]
  rfl

/-- The checks of FC 15 and FC 16 up to the quantity, on data whose byte count counts its payload. -/
theorem writeWindow_writeData {byteCount : UInt16 → Except Panic UInt16} {payload : Bytes}
    (hpos : 0 < payload.length) (hlt : payload.length < 256) :
    writeWindow checks limit byteCount ranges (writeData a n payload) =
      if ¬ (1 ≤ n ∧ n ≤ limit) then .ok (.refuse .illegalDataValue)
      else do
        if (UInt8.ofNat payload.length).toUInt16 ≠ (← byteCount n) then
          return .refuse .illegalDataValue
        else if ← checkWindow checks a n ranges then return .accept (a, n)
        else return .refuse .illegalDataAddress := by
  have haddress : u16At (writeData a n payload) 0 = .ok a := u16At_toBe a _
  have hlength : u16At (writeData a n payload) 2 = .ok n :=
    u16At_toBe n (UInt8.ofNat payload.length :: payload)
  have hindex : index (writeData a n payload) 4 = .ok (UInt8.ofNat payload.length) := rfl
  have htotal := length_writeData a n payload
  rw [writeWindow, if_neg (by omega), hindex]
  refine (if_neg (not_not_intro (by rw [htotal, toNat_byteCount hlt]))).trans ?_
  rw [haddress, hlength]
  rfl

/-- A write request within the limit, with the byte count its quantity calls for, is decided by the
window check. -/
theorem writeWindow_eq {byteCount : UInt16 → Except Panic UInt16} {payload : Bytes} (h1 : 1 ≤ n)
    (hn : n ≤ limit) (hpos : 0 < payload.length) (hlt : payload.length < 256)
    (hcount : byteCount n = .ok (UInt16.ofNat payload.length)) :
    writeWindow checks limit byteCount ranges (writeData a n payload) = do
      if ← checkWindow checks a n ranges then return .accept (a, n)
      else return .refuse .illegalDataAddress := by
  rw [writeWindow_writeData hpos hlt, if_neg (not_not_intro ⟨h1, hn⟩), hcount]
  exact if_neg (not_not_intro (toUInt16_byteCount hlt))

theorem coilWrite_word {value : UInt16}
    (hvalue : value = 0x0000 ∨ value = 0xff00) (h : checkRange [a] ranges = true) :
    coilWrite ranges (u16ToBe a ++ u16ToBe value) = .ok (.accept (a, value == 0xff00)) := by
  have h0 : u16At (u16ToBe a ++ u16ToBe value) 0 = .ok a := u16At_toBe a _
  have h2 : u16At (u16ToBe a ++ u16ToBe value) 2 = .ok value := u16At_toBe value []
  have hlen : ¬ (u16ToBe a ++ u16ToBe value).length ≠ 4 := fun h => h rfl
  have hlegal : ¬ (value ≠ 0x0000 ∧ value ≠ 0xff00) := fun hne => hvalue.elim hne.1 hne.2
  rw [coilWrite, if_neg hlen, h0, h2]
  exact (if_neg hlegal).trans (if_pos h)

theorem coilWrite_eq (v : Bool)
    (h : checkRange [a] ranges = true) :
    coilWrite ranges (u16ToBe a ++ u16ToBe (if v then 0xff00 else 0x0000)) = .ok (.accept (a, v)) := by
  cases v with
  | false => exact coilWrite_word (.inl rfl) h
  | true => exact coilWrite_word (.inr rfl) h

theorem registerWrite_eq (v : UInt16)
    (h : checkRange [a] ranges = true) :
    registerWrite ranges (u16ToBe a ++ u16ToBe v) = .ok (.accept (a, v)) := by
  have haddress : u16At (u16ToBe a ++ u16ToBe v) 0 = .ok a := u16At_toBe a _
  have hvalue : u16At (u16ToBe a ++ u16ToBe v) 2 = .ok v := u16At_toBe v []
  have hlen : ¬ (u16ToBe a ++ u16ToBe v).length ≠ 4 := fun h => h rfl
  rw [registerWrite, if_neg hlen, haddress, hvalue]
  exact if_pos h

theorem registerMask_eq (andMask orMask : UInt16)
    (h : checkRange [a] ranges = true) :
    registerMask ranges (u16ToBe a ++ u16ToBe andMask ++ u16ToBe orMask) =
      .ok (.accept (a, andMask, orMask)) := by
  have haddress : u16At (u16ToBe a ++ u16ToBe andMask ++ u16ToBe orMask) 0 = .ok a := u16At_toBe a _
  have hand : u16At (u16ToBe a ++ u16ToBe andMask ++ u16ToBe orMask) 2 = .ok andMask :=
    u16At_toBe andMask (u16ToBe orMask)
  have hor : u16At (u16ToBe a ++ u16ToBe andMask ++ u16ToBe orMask) 4 = .ok orMask :=
    u16At_toBe orMask []
  have hlen : ¬ (u16ToBe a ++ u16ToBe andMask ++ u16ToBe orMask).length ≠ 6 := fun h => h rfl
  rw [registerMask, if_neg hlen, haddress, hand, hor]
  exact if_pos h

/-- The data of an FC 23 request. -/
def readWriteData (r : ReadWrite) (payload : Bytes) : Bytes :=
  u16ToBe r.readAddress ++ u16ToBe r.readLength ++ u16ToBe r.writeAddress ++ u16ToBe r.writeLength ++
    [UInt8.ofNat payload.length] ++ payload

theorem length_readWriteData (r : ReadWrite) (payload : Bytes) :
    (readWriteData r payload).length = 9 + payload.length := by
  rw [readWriteData, List.length_append]
  rfl

/-- The checks of FC 23 up to the quantities, on data whose byte count counts its payload. -/
theorem readWrite_readWriteData {r : ReadWrite} {payload : Bytes} (hpos : 0 < payload.length)
    (hlt : payload.length < 256) :
    readWrite checks ranges (readWriteData r payload) =
      if ¬ (1 ≤ r.readLength ∧ r.readLength ≤ 0x007d) then .ok (.refuse .illegalDataValue)
      else if ¬ (1 ≤ r.writeLength ∧ r.writeLength ≤ 0x0079) then .ok (.refuse .illegalDataValue)
      else do
        if (UInt8.ofNat payload.length).toUInt16 ≠ (← mulU16 checks r.writeLength 2) then
          return .refuse .illegalDataValue
        else if ← checkReadWrite checks r ranges then return .accept r
        else return .refuse .illegalDataAddress := by
  obtain ⟨readAddress, readLength, writeAddress, writeLength⟩ := r
  have htotal := length_readWriteData ⟨readAddress, readLength, writeAddress, writeLength⟩ payload
  generalize hdata : readWriteData ⟨readAddress, readLength, writeAddress, writeLength⟩ payload = data
    at htotal ⊢
  have hindex : index data 8 = .ok (UInt8.ofNat payload.length) := by subst hdata; rfl
  have h0 : u16At data 0 = .ok readAddress := by subst hdata; exact u16At_toBe readAddress _
  have h2 : u16At data 2 = .ok readLength := by
    subst hdata
    exact u16At_toBe readLength
      (u16ToBe writeAddress ++ u16ToBe writeLength ++ [UInt8.ofNat payload.length] ++ payload)
  have h4 : u16At data 4 = .ok writeAddress := by
    subst hdata
    exact u16At_toBe writeAddress (u16ToBe writeLength ++ [UInt8.ofNat payload.length] ++ payload)
  have h6 : u16At data 6 = .ok writeLength := by
    subst hdata
    exact u16At_toBe writeLength (UInt8.ofNat payload.length :: payload)
  rw [readWrite, if_neg (by omega), hindex]
  refine (if_neg (not_not_intro (by rw [htotal, toNat_byteCount hlt]))).trans ?_
  rw [h0, h2, h4, h6]
  rfl

/-- An FC 23 request within the limits, with the byte count its quantity calls for, is decided by the
range check. -/
theorem readWrite_eq {r : ReadWrite} {payload : Bytes}
    (hread : 1 ≤ r.readLength ∧ r.readLength ≤ 0x007d)
    (hwrite : 1 ≤ r.writeLength ∧ r.writeLength ≤ 0x0079) (hpos : 0 < payload.length)
    (hlt : payload.length < 256)
    (hcount : mulU16 checks r.writeLength 2 = .ok (UInt16.ofNat payload.length)) :
    readWrite checks ranges (readWriteData r payload) = do
      if ← checkReadWrite checks r ranges then return .accept r
      else return .refuse .illegalDataAddress := by
  rw [readWrite_readWriteData hpos hlt, if_neg (not_not_intro hread), if_neg (not_not_intro hwrite),
    hcount]
  exact if_neg (not_not_intro (toUInt16_byteCount hlt))

end Decisions

/-! ## The calls of the window handlers -/

section Handlers

variable (ctx : Context) (adu : ApplicationDataUnit) {response : SlaveResponseFn σ}

theorem keeps_answer {view : World σ → γ} (hresp : ∀ data, Keeps view (response data))
    {ok : α → SlaveM σ (Except ModbusError Unit)} (hok : ∀ a, Keeps view (ok a))
    (result : Except ModbusError α) : Keeps view (answer ctx adu response ok result) := by
  cases result with
  | ok a => exact hok a
  | error e => exact hresp _

/-- The calls of a handler are those of its own part, and only when it accepts. -/
theorem calls_decide (hresp : ∀ data, KeepsCalls (response data))
    (decision : Except Panic (Decision α)) (handle : α → SlaveM σ (Except ModbusError Unit))
    (w : World σ) :
    ((SlaveM.lift decision >>= fun d => d |> act ctx adu response handle) w).2.calls =
      match decision with
      | .ok (.accept a) => (handle a w).2.calls
      | _ => w.calls := by
  rcases decision with p | _ | code | a
  · rfl
  · rfl
  · exact hresp _ w
  · rfl

/-- FC 1 to FC 4 call the model exactly when they accept. -/
theorem calls_handleRead (hresp : ∀ data, KeepsCalls (response data)) {limit : UInt16}
    {ranges : List (UInt16 × UInt16)} {c : UInt16 → UInt16 → Call} {unit : UInt8}
    {read : UInt16 → UInt16 → SlaveM σ (Except ModbusError (List α))}
    (hread : ∀ a n w, (read a n w).2.calls = w.calls ++ [(unit, c a n)])
    (pack : List α → UInt16 → Except Panic Bytes) (w : World σ) :
    (handleRead ctx adu response limit ranges read pack w).2.calls =
      match readWindow ctx.checks limit ranges adu.data with
      | .ok (.accept (a, n)) => w.calls ++ [(unit, c a n)]
      | _ => w.calls := by
  refine (calls_decide ctx adu hresp _ _ w).trans ?_
  rcases readWindow ctx.checks limit ranges adu.data with p | _ | code | ⟨a, n⟩
  · rfl
  · rfl
  · rfl
  · refine (view_bind (fun result => keeps_answer ctx adu hresp ?_ result)
      w).trans (hread a n w)
    intro values
    exact (keeps_lift _).bind fun data => hresp _

/-- FC 15 and FC 16 call the model exactly when they accept and the values are there. -/
theorem calls_handleWrite (hresp : ∀ data, KeepsCalls (response data)) {limit : UInt16}
    {byteCount : UInt16 → Except Panic UInt16} {ranges : List (UInt16 × UInt16)} {unit : UInt8}
    {values : Bytes → UInt16 → Except Panic (List α)} {c : UInt16 → List α → Call}
    {write : UInt16 → List α → SlaveM σ (Except ModbusError Unit)}
    (hwrite : ∀ a vs w, (write a vs w).2.calls = w.calls ++ [(unit, c a vs)]) (w : World σ) :
    (handleWrite ctx adu response limit byteCount ranges values write w).2.calls =
      match writeWindow ctx.checks limit byteCount ranges adu.data with
      | .ok (.accept (a, n)) =>
        match values adu.data n with
        | .ok vs => w.calls ++ [(unit, c a vs)]
        | .error _ => w.calls
      | _ => w.calls := by
  refine (calls_decide ctx adu hresp _ _ w).trans ?_
  rcases writeWindow ctx.checks limit byteCount ranges adu.data with p | _ | code | ⟨a, n⟩
  · rfl
  · rfl
  · rfl
  · dsimp only
    rcases values adu.data n with p | vs
    · rfl
    · rw [SlaveM.bind_of_ok (SlaveM.lift_ok vs w)]
      refine (view_bind ?_ w).trans (hwrite a vs w)
      intro result
      exact keeps_answer ctx adu hresp (fun _ => hresp _) result

/-! ## Accepted requests -/

variable {w w' : World σ}

/-- FC 1 to FC 4: what the model returns, packed. -/
theorem handleRead_accepts {limit a n : UInt16} {ranges : List (UInt16 × UInt16)}
    (hdecision : readWindow ctx.checks limit ranges adu.data = .ok (.accept (a, n)))
    {read : UInt16 → UInt16 → SlaveM σ (Except ModbusError (List α))} {values : List α}
    (hread : read a n w = (.ok (.ok values), w')) {pack : List α → UInt16 → Except Panic Bytes}
    {data : Bytes} (hpack : pack values n = .ok data) :
    handleRead ctx adu response limit ranges read pack w = reply ctx adu response data w' := by
  rw [handleRead, hdecision, SlaveM.bind_of_ok (SlaveM.lift_ok _ w)]
  show (read a n >>= _) w = _
  rw [SlaveM.bind_of_ok hread]
  show (SlaveM.lift (pack values n) >>= _) w' = _
  rw [hpack, SlaveM.bind_of_ok (SlaveM.lift_ok _ w')]

/-- FC 5, FC 6 and FC 22: the request, echoed. -/
theorem handleEcho_accepts {decision : Bytes → Except Panic (Decision α)} {arguments : α}
    (hdecision : decision adu.data = .ok (.accept arguments))
    {write : α → SlaveM σ (Except ModbusError Unit)}
    (hwrite : write arguments w = (.ok (.ok ()), w')) :
    handleEcho ctx adu response decision write w = reply ctx adu response adu.data w' := by
  rw [handleEcho, hdecision, SlaveM.bind_of_ok (SlaveM.lift_ok _ w)]
  show (write arguments >>= _) w = _
  rw [SlaveM.bind_of_ok hwrite]
  rfl

/-- FC 15 and FC 16: start and quantity. -/
theorem handleWrite_accepts {limit a n : UInt16} {ranges : List (UInt16 × UInt16)}
    {byteCount : UInt16 → Except Panic UInt16}
    (hdecision : writeWindow ctx.checks limit byteCount ranges adu.data = .ok (.accept (a, n)))
    {values : Bytes → UInt16 → Except Panic (List α)} {vs : List α}
    (hvalues : values adu.data n = .ok vs)
    {write : UInt16 → List α → SlaveM σ (Except ModbusError Unit)}
    (hwrite : write a vs w = (.ok (.ok ()), w')) :
    handleWrite ctx adu response limit byteCount ranges values write w =
      reply ctx adu response (u16ToBe a ++ u16ToBe n) w' := by
  rw [handleWrite, hdecision, SlaveM.bind_of_ok (SlaveM.lift_ok _ w)]
  show (SlaveM.lift (values adu.data n) >>= _) w = _
  rw [hvalues, SlaveM.bind_of_ok (SlaveM.lift_ok _ w), SlaveM.bind_of_ok hwrite]
  rfl

/-- The addresses that FC 23 locks. -/
theorem writeAddresses_ok {checks : Bool} {a n : UInt16}
    (h : ¬ (checks = true ∧ 65536 ≤ a.toNat + n.toNat)) :
    ∃ addresses, (List.range n.toNat).mapM (fun i => addU16 checks a (UInt16.ofNat i)) =
      .ok addresses := by
  refine ⟨_, mapM_eq_map fun i hi => addU16_of_not ?_⟩
  have hi := List.mem_range.mp hi
  have hn := n.toNat_lt
  rintro ⟨hchecks, hsum⟩
  rw [UInt16.toNat_ofNat_of_lt' (show i < 65536 by omega)] at hsum
  exact h ⟨hchecks, by omega⟩

/-- FC 23: what the model reads after the write, packed. -/
theorem handleFc23_accepts (model : ModbusSlaveModel σ) {r : ReadWrite}
    (hdecision : readWrite ctx.checks model.addressRange.holdingRegisters adu.data =
      .ok (.accept r))
    (hfits : ¬ (ctx.checks = true ∧ 65536 ≤ r.writeAddress.toNat + r.writeLength.toNat))
    {vs : List UInt16}
    (hvalues : registerValues 9 adu.data r.writeLength = .ok vs) {w'' : World σ}
    (hwrite : model.call ctx.checks (.writeMultipleRegisters r.writeAddress vs) w =
      (.ok (.ok ()), w')) {values : List UInt16}
    (hread : model.call ctx.checks (.readHoldingRegisters r.readAddress r.readLength) w' =
      (.ok (.ok values), w'')) {data : Bytes}
    (hpack : packRegisters ctx.checks values r.readLength = .ok data) :
    handleFc23 ctx model adu response w = reply ctx adu response data w'' := by
  obtain ⟨addresses, hlock⟩ := writeAddresses_ok hfits
  rw [handleFc23, hdecision, SlaveM.bind_of_ok (SlaveM.lift_ok _ w)]
  show (SlaveM.lift (registerValues 9 adu.data r.writeLength) >>= _) w = _
  rw [hvalues, hlock, SlaveM.bind_of_ok (SlaveM.lift_ok _ w), SlaveM.bind_of_ok (SlaveM.lift_ok _ w),
    SlaveM.bind_of_ok hwrite]
  show (model.call ctx.checks (.readHoldingRegisters r.readAddress r.readLength) >>= _) w' = _
  rw [SlaveM.bind_of_ok hread]
  show (SlaveM.lift (packRegisters ctx.checks values r.readLength) >>= _) w'' = _
  rw [hpack, SlaveM.bind_of_ok (SlaveM.lift_ok _ w'')]

/-! ## One model, one frame -/

variable (customFcs : UInt8 → Option (CustomFunctionCode σ)) {model : ModbusSlaveModel σ}

theorem processFrame_of_find {models : List (ModbusSlaveModel σ)} {frame : FramedDataUnit}
    (hunit : frame.adu.unit ≠ 0)
    (hmodel : models.find? (fun m => m.unit = frame.adu.unit) = some model) :
    processFrame ctx customFcs models frame =
      processModel ctx customFcs frame.adu (sendReply ctx) model := by
  simp only [processFrame, if_neg hunit, hmodel]

/-- A request that is not intercepted, and whose handler replies. -/
theorem processModel_of_reply {w₁ w₂ : World σ} {data : Bytes}
    (hintercept : model.call ctx.checks (.intercept adu.fc adu.data) w = (.ok (.ok none), w₁))
    (hdispatch : dispatch ctx customFcs model adu (sendReply ctx) w₁ =
      reply ctx adu (sendReply ctx) data w₂)
    (hreply : ctx.replyOutcome w₂.replies.length = .ok ()) :
    processModel ctx customFcs adu (sendReply ctx) model w =
      (.ok (), { w₂ with replies := w₂.replies ++ [ctx.encode { adu with data := data }] }) := by
  have hok : dispatch ctx customFcs model adu (sendReply ctx) w₁ =
      (.ok (.ok ()), { w₂ with replies := w₂.replies ++ [ctx.encode { adu with data := data }] }) := by
    rw [hdispatch, ← hreply]
    rfl
  rw [processModel, SlaveM.bind_of_ok hintercept]
  show (dispatch ctx customFcs model adu (sendReply ctx) >>= _) w₁ = _
  rw [SlaveM.bind_of_ok hok]
  rfl

end Handlers

end RsModbus.Slave
