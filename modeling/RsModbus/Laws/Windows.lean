import Mathlib.Tactic.Tauto
import RsModbus.Laws.Handlers
import RsModbus.Laws.Packing

/-!
# Windows of addresses

FC 1 to FC 4, FC 15 and FC 16 check a window of `n` addresses from `a` on by two points,
`check_range(&[address, address + length], ranges)`. The second point is one past the window, it is
taken modulo 2^16 in a release build and panics in a debug build, and both points have to lie in one
and the same range. `windowCheck_agrees_iff` says exactly for which windows this agrees with checking
every address on its own.
-/

namespace RsModbus.Slave

variable {σ : Type}

/-! ## Requests with a window -/

/-- The data of a request with function code `fc` for `n` addresses from `a` on, `n` within the limit
of the function code. -/
inductive WindowRequest (a n : UInt16) : UInt8 → Bytes → Prop where
  | readBits {fc : UInt8} (hfc : fc = 0x01 ∨ fc = 0x02) (h1 : 1 ≤ n) (hn : n ≤ 0x07d0) :
    WindowRequest a n fc (u16ToBe a ++ u16ToBe n)
  | readRegisters {fc : UInt8} (hfc : fc = 0x03 ∨ fc = 0x04) (h1 : 1 ≤ n) (hn : n ≤ 0x007d) :
    WindowRequest a n fc (u16ToBe a ++ u16ToBe n)
  | writeBits {payload : Bytes} (hlen : payload.length = (n.toNat + 7) / 8) (h1 : 1 ≤ n)
    (hn : n ≤ 0x07b0) : WindowRequest a n 0x0f (writeData a n payload)
  | writeRegisters {payload : Bytes} (hlen : payload.length = n.toNat * 2) (h1 : 1 ≤ n)
    (hn : n ≤ 0x007b) : WindowRequest a n 0x10 (writeData a n payload)

/-- The ranges a window with function code `fc` is checked against. -/
def windowRanges (range : AddressRange) (fc : UInt8) : List (UInt16 × UInt16) :=
  if fc = 0x01 ∨ fc = 0x0f then range.coils
  else if fc = 0x02 then range.discreteInputs
  else if fc = 0x04 then range.inputRegisters
  else range.holdingRegisters

/-- The request passes the address check: the handler goes on to call the model. -/
def Passes (ctx : Context) (customFcs : UInt8 → Option (CustomFunctionCode σ))
    (model : ModbusSlaveModel σ) (adu : ApplicationDataUnit) (w : World σ) : Prop :=
  (dispatch ctx customFcs model adu (sendReply ctx) w).2.calls ≠ w.calls

instance (ctx : Context) (customFcs : UInt8 → Option (CustomFunctionCode σ))
    (model : ModbusSlaveModel σ) (adu : ApplicationDataUnit) (w : World σ) :
    Decidable (Passes ctx customFcs model adu w) :=
  inferInstanceAs (Decidable (_ ≠ _))

/-- A handler that calls exactly when the window check succeeds. -/
theorem calls_ne_iff {x : Except Panic Bool} (call : UInt8 × Call)
    {before after : List (UInt8 × Call)} (h : after = match x with
      | .ok true => before ++ [call]
      | _ => before) : after ≠ before ↔ x = .ok true := by
  subst h
  rcases x with p | _ | _
  · simp
  · simp
  · refine ⟨fun _ => rfl, ?_⟩
    intro _ h
    exact List.cons_ne_nil call [] (List.append_right_eq_self.mp h)

section Calls

variable (ctx : Context) {adu : ApplicationDataUnit} {a n limit : UInt16}
  {ranges : List (UInt16 × UInt16)} {α : Type} {unit : UInt8} (w : World σ)

theorem handleRead_calls_iff (hdata : adu.data = u16ToBe a ++ u16ToBe n) (h1 : 1 ≤ n)
    (hn : n ≤ limit) {read : UInt16 → UInt16 → SlaveM σ (Except ModbusError (List α))}
    {c : UInt16 → UInt16 → Call}
    (hread : ∀ a n w, (read a n w).2.calls = w.calls ++ [(unit, c a n)])
    (pack : List α → UInt16 → Except Panic Bytes) :
    (handleRead ctx adu (sendReply ctx) limit ranges read pack w).2.calls ≠ w.calls ↔
      checkWindow ctx.checks a n ranges = .ok true := by
  refine calls_ne_iff (unit, c a n) ((calls_handleRead ctx adu (keepsCalls_sendReply ctx) hread
    pack w).trans ?_)
  rw [hdata, readWindow_eq h1 hn]
  rcases checkWindow ctx.checks a n ranges with p | _ | _ <;> rfl

theorem handleWrite_calls_iff {payload : Bytes} {byteCount : UInt16 → Except Panic UInt16}
    (hdata : adu.data = writeData a n payload) (h1 : 1 ≤ n) (hn : n ≤ limit)
    (hpos : 0 < payload.length) (hlt : payload.length < 256)
    (hcount : byteCount n = .ok (UInt16.ofNat payload.length))
    {values : Bytes → UInt16 → Except Panic (List α)} {vs : List α}
    (hvalues : values adu.data n = .ok vs)
    {write : UInt16 → List α → SlaveM σ (Except ModbusError Unit)} {c : UInt16 → List α → Call}
    (hwrite : ∀ a vs w, (write a vs w).2.calls = w.calls ++ [(unit, c a vs)]) :
    (handleWrite ctx adu (sendReply ctx) limit byteCount ranges values write w).2.calls ≠ w.calls ↔
      checkWindow ctx.checks a n ranges = .ok true := by
  refine calls_ne_iff (unit, c a vs) ((calls_handleWrite ctx adu (keepsCalls_sendReply ctx)
    hwrite w).trans ?_)
  rw [hdata] at hvalues
  rw [hdata, writeWindow_eq h1 hn hpos hlt hcount]
  rcases checkWindow ctx.checks a n ranges with p | _ | _
  · rfl
  · rfl
  · simp only [bind, Except.bind, pure, Except.pure, ↓reduceIte, hvalues]

end Calls

section Passing

variable {a n : UInt16} {adu : ApplicationDataUnit}

/-- What decides a request is the check of its window. -/
theorem passes_iff (ctx : Context) (customFcs : UInt8 → Option (CustomFunctionCode σ))
    (model : ModbusSlaveModel σ) (h : WindowRequest a n adu.fc adu.data) (w : World σ) :
    Passes ctx customFcs model adu w ↔
      checkWindow ctx.checks a n (windowRanges model.addressRange adu.fc) = .ok true := by
  have hcall : ∀ c w, (model.call ctx.checks c w).2.calls = w.calls ++ [(model.unit, c)] :=
    calls_call model ctx.checks
  unfold Passes dispatch windowRanges
  generalize hfc : adu.fc = fc at h ⊢
  generalize hdata : adu.data = data at h
  cases h with
  | readBits hfc h1 hn =>
    rcases hfc with rfl | rfl
    · show (handleFc1 ctx model adu (sendReply ctx) w).2.calls ≠ w.calls ↔ _
      exact handleRead_calls_iff (c := .readCoils) ctx w hdata h1 hn (fun _ _ => hcall _) _
    · show (handleFc2 ctx model adu (sendReply ctx) w).2.calls ≠ w.calls ↔ _
      exact handleRead_calls_iff (c := .readDiscreteInputs) ctx w hdata h1 hn (fun _ _ => hcall _) _
  | readRegisters hfc h1 hn =>
    rcases hfc with rfl | rfl
    · show (handleFc3 ctx model adu (sendReply ctx) w).2.calls ≠ w.calls ↔ _
      exact handleRead_calls_iff (c := .readHoldingRegisters) ctx w hdata h1 hn (fun _ _ => hcall _) _
    · show (handleFc4 ctx model adu (sendReply ctx) w).2.calls ≠ w.calls ↔ _
      exact handleRead_calls_iff (c := .readInputRegisters) ctx w hdata h1 hn (fun _ _ => hcall _) _
  | @writeBits payload hlen h1 hn =>
    have hn' : n.toNat ≤ 1968 := UInt16.le_iff_toNat_le.mp hn
    have h1' : 1 ≤ n.toNat := UInt16.le_iff_toNat_le.mp h1
    have hcount : (do return (← addU16 ctx.checks n 7) / 8) = .ok (UInt16.ofNat payload.length) := by
      rw [hlen]
      exact coilByteCount_eq (by omega)
    show (handleFc15 ctx model adu (sendReply ctx) w).2.calls ≠ w.calls ↔ _
    exact handleWrite_calls_iff (c := .writeMultipleCoils) ctx w hdata h1 hn (by omega) (by omega)
      hcount (coilValues_eq (by rw [hdata, length_writeData]; omega)) (fun _ _ => hcall _)
  | @writeRegisters payload hlen h1 hn =>
    have hn' : n.toNat ≤ 123 := UInt16.le_iff_toNat_le.mp hn
    have h1' : 1 ≤ n.toNat := UInt16.le_iff_toNat_le.mp h1
    have hcount : mulU16 ctx.checks n 2 = .ok (UInt16.ofNat payload.length) := by
      rw [hlen]
      exact registerByteCount_eq (by omega)
    show (handleFc16 ctx model adu (sendReply ctx) w).2.calls ≠ w.calls ↔ _
    exact handleWrite_calls_iff (c := .writeMultipleRegisters) ctx w hdata h1 hn (by omega) (by omega)
      hcount (registerValues_eq (by rw [hdata, length_writeData]; omega)) (fun _ _ => hcall _)

end Passing

/-! ## Windows and single addresses -/

/-- Every address of the window passes the check of a single address. -/
def EachPasses (ranges : List (UInt16 × UInt16)) (a n : UInt16) : Prop :=
  ∀ i < n.toNat, checkRange [a + UInt16.ofNat i] ranges = true

/-- No range is configured, or one range holds the first address of the window and the address after
its last, taken modulo 2^16. -/
def HeldByOne (ranges : List (UInt16 × UInt16)) (a n : UInt16) : Prop :=
  ranges = [] ∨ ∃ r ∈ ranges, (r.1 ≤ a ∧ a ≤ r.2) ∧ r.1 ≤ a + n ∧ a + n ≤ r.2

/-- Some address of the window lies in no range. -/
def OutsideSomewhere (ranges : List (UInt16 × UInt16)) (a n : UInt16) : Prop :=
  ranges ≠ [] ∧ ∃ i < n.toNat, ∀ r ∈ ranges, ¬ (r.1 ≤ a + UInt16.ofNat i ∧ a + UInt16.ofNat i ≤ r.2)

/-- When the check of a window agrees with the checks of its addresses. A window that ends before
65535 is held by one range together with the address after it, or has an address outside all ranges;
a window that ends at 65535 is refused in a debug build whatever its addresses are, and in a release build,
where the address after it is 0, it is held or has an address outside all ranges, but not both; a window
that wraps around is refused in a debug build and, to agree, must not be held in a release build. -/
def WindowAgrees (checks : Bool) (ranges : List (UInt16 × UInt16)) (a n : UInt16) : Prop :=
  if a.toNat + n.toNat < 65536 then HeldByOne ranges a n ∨ OutsideSomewhere ranges a n
  else if a.toNat + n.toNat = 65536 then
    if checks then OutsideSomewhere ranges a n
    else OutsideSomewhere ranges a n ∧ ¬ HeldByOne ranges a n ∨
      ¬ OutsideSomewhere ranges a n ∧ HeldByOne ranges a n
  else checks = true ∨ ¬ HeldByOne ranges a n

section Agreement

variable {ranges : List (UInt16 × UInt16)} {a n : UInt16} {checks : Bool}

theorem checkRange_iff {value : List UInt16} (hvalue : value ≠ []) :
    checkRange value ranges = true ↔
      ranges = [] ∨ ∃ r ∈ ranges, ∀ v ∈ value, r.1 ≤ v ∧ v ≤ r.2 := by
  obtain ⟨x, hx⟩ := List.exists_mem_of_ne_nil value hvalue
  have hrange : ∀ r : UInt16 × UInt16, (decide (r.1 ≤ r.2) && value.all (inRange · r)) = true ↔
      ∀ v ∈ value, r.1 ≤ v ∧ v ≤ r.2 := by
    intro r
    rw [Bool.and_eq_true, decide_eq_true_eq, List.all_eq_true]
    simp only [inRange, Bool.and_eq_true, decide_eq_true_eq]
    exact ⟨fun h => h.2, fun h => ⟨UInt16.le_trans (h x hx).1 (h x hx).2, h⟩⟩
  rw [checkRange, Bool.or_eq_true, List.isEmpty_iff, List.any_eq_true]
  simp only [hrange]

theorem eachPasses_iff : EachPasses ranges a n ↔ ¬ OutsideSomewhere ranges a n := by
  have hsingle : ∀ x, checkRange [x] ranges = true ↔
      (ranges ≠ [] → ∃ r ∈ ranges, r.1 ≤ x ∧ x ≤ r.2) := by
    intro x
    rw [checkRange_iff (List.cons_ne_nil x []), or_iff_not_imp_left]
    simp only [List.mem_singleton, forall_eq, ne_eq]
  simp only [EachPasses, OutsideSomewhere, hsingle]
  constructor
  · rintro h ⟨hne, i, hi, hout⟩
    obtain ⟨r, hr, hin⟩ := h i hi hne
    exact hout r hr hin
  · intro h i hi hne
    by_contra hno
    exact h ⟨hne, i, hi, fun r hr hin => hno ⟨r, hr, hin⟩⟩

theorem checkWindow_iff : checkWindow checks a n ranges = .ok true ↔
    ¬ (checks = true ∧ 65536 ≤ a.toNat + n.toNat) ∧ HeldByOne ranges a n := by
  have hheld : checkRange [a, a + n] ranges = true ↔ HeldByOne ranges a n := by
    rw [checkRange_iff (List.cons_ne_nil a [a + n])]
    simp only [List.forall_mem_cons, List.mem_singleton, forall_eq, HeldByOne]
  rw [checkWindow, addU16]
  by_cases hover : checks = true ∧ 65536 ≤ a.toNat + n.toNat
  · rw [if_pos (by simpa using hover)]
    constructor
    · intro h
      cases h
    · intro h
      exact absurd hover h.1
  · rw [if_neg (by simpa using hover), ← hheld]
    exact ⟨fun h => ⟨hover, Except.ok.inj h⟩, fun h => congrArg Except.ok h.2⟩

/-- A range that holds both ends of a window that does not wrap holds the window. -/
theorem HeldByOne.eachPasses (hend : a.toNat + n.toNat < 65536) (h : HeldByOne ranges a n) :
    ¬ OutsideSomewhere ranges a n := by
  rintro ⟨hne, i, hi, hout⟩
  obtain hnil | ⟨r, hr, ⟨hlo, _⟩, _, hhi⟩ := h
  · exact hne hnil
  · have hlast : (a + n).toNat = a.toNat + n.toNat := by
      rw [UInt16.toNat_add, Nat.mod_eq_of_lt hend]
    have haddress : (a + UInt16.ofNat i).toNat = a.toNat + i := by
      have hi' : i < 65536 := by omega
      rw [UInt16.toNat_add, UInt16.toNat_ofNat_of_lt' hi', Nat.mod_eq_of_lt (by omega)]
    refine hout r hr ⟨UInt16.le_iff_toNat_le.mpr ?_, UInt16.le_iff_toNat_le.mpr ?_⟩
    · have := UInt16.le_iff_toNat_le.mp hlo
      omega
    · have := UInt16.le_iff_toNat_le.mp hhi
      omega

theorem checkWindow_agrees_iff :
    ((checkWindow checks a n ranges = .ok true) ↔
        a.toNat + n.toNat - 1 ≤ 65535 ∧ EachPasses ranges a n) ↔
      WindowAgrees checks ranges a n := by
  rw [checkWindow_iff, eachPasses_iff, WindowAgrees]
  split
  next hend =>
    have hover : ¬ (checks = true ∧ 65536 ≤ a.toNat + n.toNat) := fun h => by omega
    have hfits : a.toNat + n.toNat - 1 ≤ 65535 := by omega
    have hheld : HeldByOne ranges a n → ¬ OutsideSomewhere ranges a n := HeldByOne.eachPasses hend
    tauto
  next hend =>
    split
    next hlast =>
      have hfits : a.toNat + n.toNat - 1 ≤ 65535 := by omega
      have hover : 65536 ≤ a.toNat + n.toNat := by omega
      split
      next hchecks => tauto
      next hchecks =>
        rw [and_iff_right fun h => hchecks h.1, and_iff_right hfits]
        by_cases hout : OutsideSomewhere ranges a n <;> simp [hout]
    next hlast =>
      have hfits : ¬ a.toNat + n.toNat - 1 ≤ 65535 := by omega
      have hover : 65536 ≤ a.toNat + n.toNat := by omega
      tauto

end Agreement

/-- **Exactly when the check of a window is the check of its addresses**: for every window request of
FC 1 to FC 4, FC 15 and FC 16 and every list of ranges. -/
theorem windowCheck_agrees_iff (ctx : Context)
    (customFcs : UInt8 → Option (CustomFunctionCode σ)) (model : ModbusSlaveModel σ)
    {adu : ApplicationDataUnit} {a n : UInt16} (h : WindowRequest a n adu.fc adu.data)
    (w : World σ) :
    (Passes ctx customFcs model adu w ↔
        a.toNat + n.toNat - 1 ≤ 65535 ∧
          EachPasses (windowRanges model.addressRange adu.fc) a n) ↔
      WindowAgrees ctx.checks (windowRanges model.addressRange adu.fc) a n := by
  rw [passes_iff ctx customFcs model h w]
  exact checkWindow_agrees_iff

/-- A model with the ten holding registers 0 to 9. -/
def tenRegisters : ModbusSlaveModel Unit :=
  ⟨1, { holdingRegisters := [(0, 9)] }, fun _ => none⟩

/-- A release build of an RTU slave. -/
def releaseContext : Context := ⟨false, Rtu.encode, fun _ => .ok ()⟩

theorem wholeRange_refused :
    ¬ (Passes releaseContext (fun _ => none) tenRegisters
          (.new 0x01 0x03 (u16ToBe 0 ++ u16ToBe 10)) ⟨(), [], []⟩ ↔
        0 + 10 - 1 ≤ 65535 ∧ EachPasses [(0, 9)] 0 10) := by
  have hrefused : ¬ Passes releaseContext (fun _ => none) tenRegisters
      (.new 0x01 0x03 (u16ToBe 0 ++ u16ToBe 10)) ⟨(), [], []⟩ := by decide
  have heach : EachPasses [(0, 9)] 0 10 := by
    unfold EachPasses
    decide
  exact fun h => hrefused (h.mpr ⟨by decide, heach⟩)

/-- One register less, and the window agrees. -/
theorem windowCheck_agrees_nine :
    Passes releaseContext (fun _ => none) tenRegisters
        (.new 0x01 0x03 (u16ToBe 0 ++ u16ToBe 9)) ⟨(), [], []⟩ ↔
      0 + 9 - 1 ≤ 65535 ∧ EachPasses [(0, 9)] 0 9 := by
  let adu := ApplicationDataUnit.new 0x01 0x03 (u16ToBe 0 ++ u16ToBe 9)
  have hrequest : WindowRequest 0 9 adu.fc adu.data :=
    .readRegisters (.inl rfl) (by decide) (by decide)
  have hheld : HeldByOne [(0, 9)] 0 9 := .inr ⟨(0, 9), List.mem_singleton_self _, by decide⟩
  exact (windowCheck_agrees_iff releaseContext (fun _ => none) tenRegisters hrequest
    ⟨(), [], []⟩).mpr (.inl hheld)

end RsModbus.Slave
