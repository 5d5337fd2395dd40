import RsModbus.Laws.Decisions

/-!
# The two windows of FC 23

FC 23 checks both of its windows with one `check_range` of four points, so that one range has to hold
all four; FC 3 and FC 16 each ask for a range of their own. `readWriteCheck_agrees_iff` says for which
windows that makes a difference, and for which lists of ranges it makes one for some windows: those in
which two ranges lie within no common range.
-/

namespace RsModbus.Slave

variable {σ : Type}

/-! ## Ranges that hold windows -/

/-- The range holds the first address of a window and the address after its last, taken modulo 2^16. -/
def Holds (range : UInt16 × UInt16) (a n : UInt16) : Prop :=
  (range.1 ≤ a ∧ a ≤ range.2) ∧ range.1 ≤ a + n ∧ a + n ≤ range.2

/-- No range is configured, or one range holds both windows of the request. -/
def HeldTogether (ranges : List (UInt16 × UInt16)) (r : ReadWrite) : Prop :=
  ranges = [] ∨ ∃ range ∈ ranges, Holds range r.readAddress r.readLength ∧
    Holds range r.writeAddress r.writeLength

/-- Any two ranges with more than one address lie within one range of the list. -/
def CommonRanges (ranges : List (UInt16 × UInt16)) : Prop :=
  ∀ p ∈ ranges, ∀ q ∈ ranges, p.1 < p.2 → q.1 < q.2 →
    ∃ range ∈ ranges, (range.1 ≤ p.1 ∧ p.2 ≤ range.2) ∧ range.1 ≤ q.1 ∧ q.2 ≤ range.2

section Ranges

variable {ranges : List (UInt16 × UInt16)} {range p : UInt16 × UInt16} {a n : UInt16} {r : ReadWrite}

/-- A range holds what a range within it holds. -/
theorem Holds.mono (h : Holds p a n) (hlo : range.1 ≤ p.1) (hhi : p.2 ≤ range.2) :
    Holds range a n :=
  ⟨⟨UInt16.le_trans hlo h.1.1, UInt16.le_trans h.1.2 hhi⟩, UInt16.le_trans hlo h.2.1,
    UInt16.le_trans h.2.2 hhi⟩

/-- A range that holds a window of at most 65535 addresses has more than one. -/
theorem Holds.lt (h : Holds p a n) (hn : n ≠ 0) : p.1 < p.2 := by
  apply UInt16.lt_of_le_of_ne (UInt16.le_trans h.1.1 h.1.2)
  intro heq
  -- both points are the one address of the range
  have ha : a = p.2 := UInt16.le_antisymm h.1.2 (heq ▸ h.1.1)
  have hend : a + n = p.2 := UInt16.le_antisymm h.2.2 (heq ▸ h.2.1)
  have hsum : (a + n).toNat = a.toNat := congrArg UInt16.toNat (hend.trans ha.symm)
  rw [UInt16.toNat_add] at hsum
  have hlt := n.toNat_lt
  have halt := a.toNat_lt
  apply hn
  apply UInt16.toNat_inj.mp
  show n.toNat = 0
  omega

theorem HeldTogether.each (h : HeldTogether ranges r) :
    HeldByOne ranges r.readAddress r.readLength ∧ HeldByOne ranges r.writeAddress r.writeLength := by
  rcases h with hnil | ⟨range, hmem, hread, hwrite⟩
  · exact ⟨.inl hnil, .inl hnil⟩
  · exact ⟨.inr ⟨range, hmem, hread⟩, .inr ⟨range, hmem, hwrite⟩⟩

/-- The range check of FC 23. -/
theorem checkReadWrite_iff {checks : Bool} :
    checkReadWrite checks r ranges = .ok true ↔
      ¬ (checks = true ∧ r.Overflows) ∧ HeldTogether ranges r := by
  rcases checkReadWrite_cases checks r ranges with ⟨hover, hpanics⟩ | ⟨hover, -⟩
  · rw [hpanics]
    exact ⟨nofun, fun h => absurd hover h.1⟩
  · have hread : ¬ (checks = true ∧ 65536 ≤ r.readAddress.toNat + r.readLength.toNat) :=
      fun h => hover ⟨h.1, .inl h.2⟩
    have hwrite : ¬ (checks = true ∧ 65536 ≤ r.writeAddress.toNat + r.writeLength.toNat) :=
      fun h => hover ⟨h.1, .inr h.2⟩
    have hcheck : checkReadWrite checks r ranges = .ok (checkRange [r.readAddress,
        r.readAddress + r.readLength, r.writeAddress, r.writeAddress + r.writeLength] ranges) := by
      rw [checkReadWrite, addU16_of_not hread, addU16_of_not hwrite]
      rfl
    rw [hcheck, Except.ok.injEq, checkRange_iff (List.cons_ne_nil _ _), and_iff_right hover]
    simp only [List.forall_mem_cons, List.not_mem_nil, false_implies, implies_true, and_true,
      HeldTogether, Holds, and_assoc]

/-- A range with more than one address holds the window of its first address. -/
theorem holds_first (h : p.1 < p.2) : Holds p p.1 1 := by
  have hlt := UInt16.lt_iff_toNat_lt.mp h
  have hbound := p.2.toNat_lt
  simp only [Holds, UInt16.le_iff_toNat_le, UInt16.toNat_add, UInt16.toNat_one]
  omega

/-- It holds the window of the address before its last. -/
theorem holds_last (h : p.1 < p.2) : Holds p (p.2 - 1) 1 := by
  have hlt := UInt16.lt_iff_toNat_lt.mp h
  have hbound := p.2.toNat_lt
  have hone : (1 : UInt16) ≤ p.2 := UInt16.le_iff_toNat_le.mpr (by simp; omega)
  simp only [Holds, UInt16.sub_add_cancel, UInt16.le_iff_toNat_le, UInt16.toNat_sub_of_le _ _ hone,
    UInt16.toNat_one]
  omega

/-- One register is read and one is written. -/
def readWriteOne (readAddress writeAddress : UInt16) : ReadWrite :=
  ⟨readAddress, 1, writeAddress, 1⟩

theorem readWriteOne_within (readAddress writeAddress : UInt16) :
    (readWriteOne readAddress writeAddress).Within :=
  have hread : (1 : UInt16) ≤ 0x007d := by decide
  have hwrite : (1 : UInt16) ≤ 0x0079 := by decide
  ⟨⟨UInt16.le_refl 1, hread⟩, UInt16.le_refl 1, hwrite⟩

theorem readWriteOne_fits {q : UInt16 × UInt16} (hp : p.1 < p.2) (hq : q.1 < q.2) :
    ¬ (readWriteOne p.1 (q.2 - 1)).Overflows := by
  have hplt := UInt16.lt_iff_toNat_lt.mp hp
  have hqlt := UInt16.lt_iff_toNat_lt.mp hq
  have hpbound := p.2.toNat_lt
  have hqbound := q.2.toNat_lt
  have hone : (1 : UInt16) ≤ q.2 := UInt16.le_iff_toNat_le.mpr (by simp; omega)
  simp only [ReadWrite.Overflows, readWriteOne, UInt16.toNat_sub_of_le _ _ hone,
    UInt16.toNat_one]
  omega

/-- What lies in a range of which a larger one is in the list needs no range of its own. -/
theorem commonRange_of_le {q : UInt16 × UInt16} (hp : p ∈ ranges) (hlo : p.1 ≤ q.1)
    (hhi : q.2 ≤ p.2) :
    ∃ range ∈ ranges, (range.1 ≤ p.1 ∧ p.2 ≤ range.2) ∧ range.1 ≤ q.1 ∧ q.2 ≤ range.2 :=
  ⟨p, hp, ⟨UInt16.le_refl _, UInt16.le_refl _⟩, hlo, hhi⟩

/-- The common ranges are those the windows of single registers need. -/
theorem commonRanges_of_singles
    (h : ∀ p ∈ ranges, ∀ q ∈ ranges, p.1 < p.2 → q.1 < q.2 →
      HeldTogether ranges (readWriteOne p.1 (q.2 - 1))) : CommonRanges ranges := by
  -- a range holding the first address of the one and the last of the other
  have hspan : ∀ p ∈ ranges, ∀ q ∈ ranges, p.1 < p.2 → q.1 < q.2 →
      ∃ range ∈ ranges, range.1 ≤ p.1 ∧ q.2 ≤ range.2 := by
    intro p hp q hq hplt hqlt
    rcases h p hp q hq hplt hqlt with hnil | ⟨range, hmem, hread, hwrite⟩
    · exact absurd hnil (List.ne_nil_of_mem hp)
    · have hlast : q.2 - 1 + 1 ≤ range.2 := hwrite.2.2
      rw [UInt16.sub_add_cancel] at hlast
      exact ⟨range, hmem, hread.1.1, hlast⟩
  intro p hp q hq hplt hqlt
  rcases UInt16.le_total p.1 q.1 with hlo | hlo <;> rcases UInt16.le_total p.2 q.2 with hhi | hhi
  · obtain ⟨range, hmem, hfirst, hlast⟩ := hspan p hp q hq hplt hqlt
    exact ⟨range, hmem, ⟨hfirst, UInt16.le_trans hhi hlast⟩, UInt16.le_trans hfirst hlo, hlast⟩
  · exact commonRange_of_le hp hlo hhi
  · obtain ⟨range, hmem, hq, hp⟩ := commonRange_of_le hq hlo hhi
    exact ⟨range, hmem, hp, hq⟩
  · obtain ⟨range, hmem, hfirst, hlast⟩ := hspan q hq p hp hqlt hplt
    exact ⟨range, hmem, ⟨UInt16.le_trans hfirst hlo, hlast⟩, hfirst, UInt16.le_trans hhi hlast⟩

/-- Among common ranges, windows that have a range each have one together. -/
theorem CommonRanges.heldTogether (h : CommonRanges ranges) (hwithin : r.Within)
    (hread : HeldByOne ranges r.readAddress r.readLength)
    (hwrite : HeldByOne ranges r.writeAddress r.writeLength) : HeldTogether ranges r := by
  have hne : ∀ {n : UInt16}, 1 ≤ n → n ≠ 0 := by
    rintro n hn rfl
    exact absurd hn (by decide)
  rcases hread with hnil | ⟨p, hp, hread⟩
  · exact .inl hnil
  rcases hwrite with hnil | ⟨q, hq, hwrite⟩
  · exact .inl hnil
  have hread : Holds p r.readAddress r.readLength := hread
  have hwrite : Holds q r.writeAddress r.writeLength := hwrite
  obtain ⟨range, hmem, hpin, hqin⟩ := h p hp q hq (hread.lt (hne hwithin.1.1))
    (hwrite.lt (hne hwithin.2.1))
  exact .inr ⟨range, hmem, hread.mono hpin.1 hpin.2, hwrite.mono hqin.1 hqin.2⟩

end Ranges

/-! ## Requests -/

section Requests

variable (ctx : Context) (customFcs : UInt8 → Option (CustomFunctionCode σ))
  (model : ModbusSlaveModel σ) {adu : ApplicationDataUnit} {r : ReadWrite} {payload : Bytes}

/-- Behind the checks of FC 23 the model is called, whatever it returns. -/
theorem calls_readWrite (hvalues : ∃ vs, registerValues 9 adu.data r.writeLength = .ok vs)
    (hlocks : ∃ addresses, (List.range r.writeLength.toNat).mapM (fun i =>
      addU16 ctx.checks r.writeAddress (UInt16.ofNat i)) = .ok addresses)
    (hdecision : readWrite ctx.checks model.addressRange.holdingRegisters adu.data =
      .ok (.accept r)) (w : World σ) :
    ∃ call more, (handleFc23 ctx model adu (sendReply ctx) w).2.calls = w.calls ++ call :: more := by
  obtain ⟨vs, hvs⟩ := hvalues
  obtain ⟨addresses, hlock⟩ := hlocks
  let write : Call := .writeMultipleRegisters r.writeAddress vs
  have hcall := calls_call model ctx.checks write w
  rw [handleFc23, hdecision, SlaveM.bind_of_ok (SlaveM.lift_ok _ w)]
  show ∃ call more, ((SlaveM.lift (registerValues 9 adu.data r.writeLength) >>= _) w).2.calls = _
  rw [hvs, SlaveM.bind_of_ok (SlaveM.lift_ok _ w), hlock, SlaveM.bind_of_ok (SlaveM.lift_ok _ w)]
  refine ⟨(model.unit, write), ?_⟩
  rcases hwrite : model.call ctx.checks write w with ⟨p | e | ⟨⟩, u⟩
  · rw [hwrite] at hcall
    rw [SlaveM.bind_of_error hwrite]
    exact ⟨[], hcall⟩
  · rw [hwrite] at hcall
    rw [SlaveM.bind_of_ok hwrite]
    exact ⟨[], hcall⟩
  · rw [hwrite] at hcall
    rw [SlaveM.bind_of_ok hwrite]
    let read : Call := .readHoldingRegisters r.readAddress r.readLength
    refine ⟨[(model.unit, read)], ?_⟩
    have hrest : ((model.call ctx.checks read >>= fun result => result |> answer ctx adu
        (sendReply ctx) fun registers => do
          reply ctx adu (sendReply ctx)
            (← SlaveM.lift (packRegisters ctx.checks registers r.readLength))) u).2.calls =
        (model.call ctx.checks read u).2.calls := by
      apply view_bind
      intro result
      refine keeps_answer ctx adu (keepsCalls_sendReply ctx) (fun registers => ?_) result
      exact (keeps_lift _).bind fun data => keepsCalls_sendReply ctx _
    refine hrest.trans ((calls_call model ctx.checks read u).trans ?_)
    rw [hcall, List.append_assoc]
    rfl

variable (hfc : adu.fc = 0x17) (hdata : adu.data = readWriteData r payload) (hwithin : r.Within)
  (hpayload : payload.length = r.writeLength.toNat * 2)

include hfc hdata hwithin hpayload in
/-- What decides an FC 23 request is the check of its two windows. -/
theorem passes_readWrite_iff (w : World σ) :
    Passes ctx customFcs model adu w ↔
      checkReadWrite ctx.checks r model.addressRange.holdingRegisters = .ok true := by
  have h1 : 1 ≤ r.writeLength.toNat := UInt16.le_iff_toNat_le.mp hwithin.2.1
  have hn : r.writeLength.toNat ≤ 121 := UInt16.le_iff_toNat_le.mp hwithin.2.2
  have hcount : mulU16 ctx.checks r.writeLength 2 = .ok (UInt16.ofNat payload.length) := by
    rw [hpayload]
    exact registerByteCount_eq (by omega)
  have hdecision : readWrite ctx.checks model.addressRange.holdingRegisters adu.data = do
      if ← checkReadWrite ctx.checks r model.addressRange.holdingRegisters then return .accept r
      else return .refuse .illegalDataAddress := by
    rw [hdata]
    exact readWrite_eq hwithin.1 hwithin.2 (by omega) (by omega) hcount
  have hdispatch : dispatch ctx customFcs model adu (sendReply ctx) =
      handleFc23 ctx model adu (sendReply ctx) := by
    unfold dispatch
    rw [hfc]
    rfl
  rw [Passes, hdispatch]
  rcases hcheck : checkReadWrite ctx.checks r model.addressRange.holdingRegisters with p | _ | _
  · rw [hcheck] at hdecision
    refine iff_of_false (not_not_intro ?_) nofun
    rw [handleFc23, hdecision]
    rfl
  · rw [hcheck] at hdecision
    refine iff_of_false (not_not_intro ?_) (by simp)
    rw [handleFc23, hdecision]
    exact keepsCalls_sendReply ctx _ w
  · rw [hcheck] at hdecision
    refine iff_of_true ?_ rfl
    have hover := (checkReadWrite_iff.mp hcheck).1
    have hlock : ∃ addresses, (List.range r.writeLength.toNat).mapM (fun i =>
        addU16 ctx.checks r.writeAddress (UInt16.ofNat i)) = .ok addresses :=
      writeAddresses_ok fun h => hover ⟨h.1, .inr h.2⟩
    have hvalues : ∃ vs, registerValues 9 adu.data r.writeLength = .ok vs := by
      refine ⟨_, registerValues_eq ?_⟩
      rw [hdata, length_readWriteData]
      omega
    obtain ⟨call, more, hcalls⟩ := calls_readWrite ctx model hvalues hlock hdecision w
    rw [hcalls]
    exact fun h => List.cons_ne_nil call more (List.append_right_eq_self.mp h)

end Requests

/-! ## Agreement -/

/-- When the check of two windows at once, which is the stricter one, is that of each. -/
theorem agrees_iff_of_imp {overRead overWrite together read write : Prop}
    (h : together → read ∧ write) :
    (¬ (overRead ∨ overWrite) ∧ together ↔ (¬ overRead ∧ read) ∧ ¬ overWrite ∧ write) ↔
      (overRead ∨ overWrite) ∨ together ∨ ¬ (read ∧ write) := by
  tauto

/-- FC 23 passes the address check on its windows when FC 3 passes it on the one and FC 16 on the
other. -/
def ReadWriteAgrees (ctx : Context) (customFcs : UInt8 → Option (CustomFunctionCode σ))
    (model : ModbusSlaveModel σ) (unit : UInt8) (w : World σ) (r : ReadWrite) (payload : Bytes) :
    Prop :=
  Passes ctx customFcs model (.new unit 0x17 (readWriteData r payload)) w ↔
    Passes ctx customFcs model (.new unit 0x03 (u16ToBe r.readAddress ++ u16ToBe r.readLength)) w ∧
      Passes ctx customFcs model (.new unit 0x10 (writeData r.writeAddress r.writeLength payload)) w

section Agreement

variable (ctx : Context) (customFcs : UInt8 → Option (CustomFunctionCode σ))
  (model : ModbusSlaveModel σ) (unit : UInt8) (w : World σ) {r : ReadWrite} {payload : Bytes}

/-- On windows within the limits, with as many bytes as the write window takes. -/
structure InLimits (r : ReadWrite) (payload : Bytes) : Prop where
  within : r.Within
  counted : payload.length = r.writeLength.toNat * 2

theorem passes_readWindow_iff (h : InLimits r payload) :
    Passes ctx customFcs model
        (.new unit 0x03 (u16ToBe r.readAddress ++ u16ToBe r.readLength)) w ↔
      ¬ (ctx.checks = true ∧ 65536 ≤ r.readAddress.toNat + r.readLength.toNat) ∧
        HeldByOne model.addressRange.holdingRegisters r.readAddress r.readLength := by
  let adu := ApplicationDataUnit.new unit 0x03 (u16ToBe r.readAddress ++ u16ToBe r.readLength)
  have hrequest : WindowRequest r.readAddress r.readLength adu.fc adu.data :=
    .readRegisters (.inl rfl) h.within.1.1 h.within.1.2
  exact (passes_iff ctx customFcs model hrequest w).trans checkWindow_iff

theorem passes_writeWindow_iff (h : InLimits r payload) :
    Passes ctx customFcs model
        (.new unit 0x10 (writeData r.writeAddress r.writeLength payload)) w ↔
      ¬ (ctx.checks = true ∧ 65536 ≤ r.writeAddress.toNat + r.writeLength.toNat) ∧
        HeldByOne model.addressRange.holdingRegisters r.writeAddress r.writeLength := by
  let adu := ApplicationDataUnit.new unit 0x10 (writeData r.writeAddress r.writeLength payload)
  have hrequest : WindowRequest r.writeAddress r.writeLength adu.fc adu.data :=
    .writeRegisters h.counted h.within.2.1 (UInt16.le_trans h.within.2.2 (by decide))
  exact (passes_iff ctx customFcs model hrequest w).trans checkWindow_iff

/-- For which windows the check of FC 23 is the conjunction of the other two: those that overflow in a
debug build, those that one range holds together, and those of which one lies in no range. -/
theorem readWriteAgrees_iff (h : InLimits r payload) :
    ReadWriteAgrees ctx customFcs model unit w r payload ↔
      (ctx.checks = true ∧ r.Overflows) ∨
        HeldTogether model.addressRange.holdingRegisters r ∨
        ¬ (HeldByOne model.addressRange.holdingRegisters r.readAddress r.readLength ∧
          HeldByOne model.addressRange.holdingRegisters r.writeAddress r.writeLength) := by
  have hover : (ctx.checks = true ∧ r.Overflows) ↔
      (ctx.checks = true ∧ 65536 ≤ r.readAddress.toNat + r.readLength.toNat) ∨
        (ctx.checks = true ∧ 65536 ≤ r.writeAddress.toNat + r.writeLength.toNat) := and_or_left
  have hboth : Passes ctx customFcs model (.new unit 0x17 (readWriteData r payload)) w ↔
      ¬ (ctx.checks = true ∧ r.Overflows) ∧
        HeldTogether model.addressRange.holdingRegisters r :=
    (passes_readWrite_iff ctx customFcs model rfl rfl h.within h.counted w).trans
      checkReadWrite_iff
  have heach : HeldTogether model.addressRange.holdingRegisters r →
      HeldByOne model.addressRange.holdingRegisters r.readAddress r.readLength ∧
        HeldByOne model.addressRange.holdingRegisters r.writeAddress r.writeLength :=
    HeldTogether.each
  rw [ReadWriteAgrees, hboth, passes_readWindow_iff ctx customFcs model unit w h,
    passes_writeWindow_iff ctx customFcs model unit w h, hover]
  exact agrees_iff_of_imp heach

/-- For which lists of ranges the check of FC 23 is the conjunction of the other two, on all windows
within the limits. -/
theorem readWriteAgrees_forall_iff :
    (∀ (r : ReadWrite) (payload : Bytes), InLimits r payload →
        ReadWriteAgrees ctx customFcs model unit w r payload) ↔
      CommonRanges model.addressRange.holdingRegisters := by
  constructor
  · intro h
    apply commonRanges_of_singles
    intro p hp q hq hplt hqlt
    let r := readWriteOne p.1 (q.2 - 1)
    have hlimits : InLimits r [0, 0] := ⟨readWriteOne_within _ _, rfl⟩
    have hagrees := (readWriteAgrees_iff ctx customFcs model unit w hlimits).mp (h r _ hlimits)
    rcases hagrees with hover | htogether | hneither
    · exact absurd hover.2 (readWriteOne_fits hplt hqlt)
    · exact htogether
    · exact absurd ⟨.inr ⟨p, hp, holds_first hplt⟩, .inr ⟨q, hq, holds_last hqlt⟩⟩ hneither
  · intro h r payload hlimits
    rw [readWriteAgrees_iff ctx customFcs model unit w hlimits]
    by_cases heach : HeldByOne model.addressRange.holdingRegisters r.readAddress r.readLength ∧
        HeldByOne model.addressRange.holdingRegisters r.writeAddress r.writeLength
    · exact .inr (.inl (h.heldTogether hlimits.within heach.1 heach.2))
    · exact .inr (.inr heach)

end Agreement

/-- **Exactly when the address check of FC 23 is the conjunction of the checks of FC 3 and FC 16**: for
every two windows within the limits, and for every list of ranges over all such windows. -/
theorem readWriteCheck_agrees_iff (ctx : Context)
    (customFcs : UInt8 → Option (CustomFunctionCode σ)) (model : ModbusSlaveModel σ) (unit : UInt8)
    (w : World σ) :
    (∀ (r : ReadWrite) (payload : Bytes), InLimits r payload →
      (ReadWriteAgrees ctx customFcs model unit w r payload ↔
        (ctx.checks = true ∧ r.Overflows) ∨
          HeldTogether model.addressRange.holdingRegisters r ∨
          ¬ (HeldByOne model.addressRange.holdingRegisters r.readAddress r.readLength ∧
            HeldByOne model.addressRange.holdingRegisters r.writeAddress r.writeLength))) ∧
    ((∀ (r : ReadWrite) (payload : Bytes), InLimits r payload →
        ReadWriteAgrees ctx customFcs model unit w r payload) ↔
      CommonRanges model.addressRange.holdingRegisters) :=
  ⟨fun _ _ h => readWriteAgrees_iff ctx customFcs model unit w h,
    readWriteAgrees_forall_iff ctx customFcs model unit w⟩

/-- Within the one block of ten registers it agrees. -/
theorem readWrite_agrees_in_block :
    ReadWriteAgrees releaseContext (fun _ => none) tenRegisters 1 ⟨(), [], []⟩ (readWriteOne 0 8)
      [0, 0] := by
  have hlimits : InLimits (readWriteOne 0 8) [0, 0] := ⟨readWriteOne_within 0 8, rfl⟩
  have htogether : HeldTogether [(0, 9)] (readWriteOne 0 8) :=
    .inr ⟨(0, 9), List.mem_singleton_self _, holds_first (by decide), by decide, by decide⟩
  exact ((readWriteCheck_agrees_iff releaseContext (fun _ => none) tenRegisters 1
    ⟨(), [], []⟩).1 _ _ hlimits).mpr (.inr (.inl htogether))

/-- A model with the holding registers 0 to 9 and 100 to 109. -/
def twoBlocks : ModbusSlaveModel Unit :=
  ⟨1, { holdingRegisters := [(0, 9), (100, 109)] }, fun _ => none⟩

/-- Register 0 can be read and register 100 can be written, but not by one request. -/
theorem readWrite_refused_across_blocks :
    InLimits (readWriteOne 0 100) [0, 0] ∧
      ¬ ReadWriteAgrees releaseContext (fun _ => none) twoBlocks 1 ⟨(), [], []⟩
        (readWriteOne 0 100) [0, 0] := by
  refine ⟨⟨readWriteOne_within 0 100, rfl⟩, ?_⟩
  unfold ReadWriteAgrees
  decide

end RsModbus.Slave
