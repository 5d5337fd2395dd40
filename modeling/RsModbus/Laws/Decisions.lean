import RsModbus.Laws.Windows

/-!
# What the checks of the handlers decide

The checks of a handler end in one of four ways: they panic on an address that overflows, ignore a
request whose length is not the one its function code prescribes, refuse it, or accept it. `Decided`
says which request ends in which way, and there is one lemma for each list of checks. On a request of
the right length the data is words and a counted payload (`exists_writeData`, `exists_readWriteData`),
so that the checks are those of `Laws/Handlers` on a request that is put together.
-/

namespace RsModbus.Slave

variable {σ α β : Type}

/-! ## Requests -/

/-- The function codes with a handler of their own. -/
def BuiltIn (fc : UInt8) : Prop :=
  fc = 0x01 ∨ fc = 0x02 ∨ fc = 0x03 ∨ fc = 0x04 ∨ fc = 0x05 ∨ fc = 0x06 ∨ fc = 0x0f ∨ fc = 0x10 ∨
    fc = 0x11 ∨ fc = 0x16 ∨ fc = 0x17 ∨ fc = 0x2b

instance (fc : UInt8) : Decidable (BuiltIn fc) := inferInstanceAs (Decidable (_ ∨ _))

/-- The data has the length that the function code prescribes. -/
def LengthPrescribed (fc : UInt8) (data : Bytes) : Prop :=
  if fc = 0x01 ∨ fc = 0x02 ∨ fc = 0x03 ∨ fc = 0x04 ∨ fc = 0x05 ∨ fc = 0x06 then data.length = 4
  else if fc = 0x0f ∨ fc = 0x10 then 6 ≤ data.length ∧ data.length = 5 + (data.getD 4 0).toNat
  else if fc = 0x11 then data.length = 0
  else if fc = 0x16 then data.length = 6
  else if fc = 0x17 then 10 ≤ data.length ∧ data.length = 9 + (data.getD 8 0).toNat
  else if fc = 0x2b then data.length = 3
  else True

instance (fc : UInt8) (data : Bytes) : Decidable (LengthPrescribed fc data) := by
  unfold LengthPrescribed
  infer_instance

/-- The handler of the function code ignores the request. -/
def Ignored (fc : UInt8) (data : Bytes) : Prop := fc ≠ 0x2b ∧ ¬ LengthPrescribed fc data

/-- The limits on the two quantities of FC 23. -/
def ReadWrite.Within (r : ReadWrite) : Prop :=
  (1 ≤ r.readLength ∧ r.readLength ≤ 0x007d) ∧ 1 ≤ r.writeLength ∧ r.writeLength ≤ 0x0079

/-- Some window of the request has no address after it. -/
def ReadWrite.Overflows (r : ReadWrite) : Prop :=
  65536 ≤ r.readAddress.toNat + r.readLength.toNat ∨
    65536 ≤ r.writeAddress.toNat + r.writeLength.toNat

/-- The request passes the checks on its length and its quantities, and the address after one of its
windows does not fit in a `u16`. -/
def Overflows (fc : UInt8) (data : Bytes) : Prop :=
  (∃ a n : UInt16, WindowRequest a n fc data ∧ 65536 ≤ a.toNat + n.toNat) ∨
    fc = 0x17 ∧ ∃ (r : ReadWrite) (payload : Bytes), data = readWriteData r payload ∧ r.Within ∧
      payload.length = r.writeLength.toNat * 2 ∧ r.Overflows

section Requests

theorem u16ToBe_fromBe (hi lo : UInt8) : u16ToBe (u16FromBe hi lo) = [hi, lo] := by
  have hhi := hi.toNat_lt
  have hlo := lo.toNat_lt
  have hword : (u16FromBe hi lo).toNat = hi.toNat * 256 + lo.toNat :=
    UInt16.toNat_ofNat_of_lt' (show hi.toNat * 256 + lo.toNat < 65536 by omega)
  have hhigh : (hi.toNat * 256 + lo.toNat) / 256 = hi.toNat := by omega
  have hlow : UInt8.ofNat (hi.toNat * 256 + lo.toNat) = lo := by
    apply UInt8.toNat_inj.mp
    rw [UInt8.toNat_ofNat']
    omega
  rw [u16ToBe, hword, hhigh, UInt8.ofNat_toNat, hlow]

/-- Two bytes are a word. -/
theorem exists_word {data : Bytes} {k : Nat} (h : data.length = k + 2) :
    ∃ (x : UInt16) (rest : Bytes), data = u16ToBe x ++ rest ∧ rest.length = k := by
  match data, h with
  | hi :: lo :: rest, h =>
    refine ⟨u16FromBe hi lo, rest, ?_, by simpa using h⟩
    rw [u16ToBe_fromBe]
    rfl

/-- Four bytes are two words. -/
theorem exists_words {data : Bytes} {k : Nat} (h : data.length = k + 4) :
    ∃ (x y : UInt16) (rest : Bytes), data = u16ToBe x ++ u16ToBe y ++ rest ∧ rest.length = k := by
  obtain ⟨x, tail, rfl, htail⟩ := exists_word (k := k + 2) h
  obtain ⟨y, rest, rfl, hrest⟩ := exists_word htail
  exact ⟨x, y, rest, (List.append_assoc _ _ _).symm, hrest⟩

theorem u16ToBe_injective {x y : UInt16} (h : u16ToBe x = u16ToBe y) : x = y := by
  have hx := u16FromBe_toBe x
  have hy := u16FromBe_toBe y
  obtain ⟨hhi, htail⟩ := List.cons.inj h
  obtain ⟨hlo, -⟩ := List.cons.inj htail
  rw [← hx, ← hy, hhi, hlo]

theorem u16ToBe_append_inj {x y : UInt16} {xs ys : Bytes}
    (h : u16ToBe x ++ xs = u16ToBe y ++ ys) : x = y ∧ xs = ys := by
  obtain ⟨hword, hrest⟩ := List.append_inj h rfl
  exact ⟨u16ToBe_injective hword, hrest⟩

theorem windowRequest_iff {a n : UInt16} {fc : UInt8} {data : Bytes} :
    WindowRequest a n fc data ↔
      ((fc = 0x01 ∨ fc = 0x02) ∧ data = u16ToBe a ++ u16ToBe n ∧ 1 ≤ n ∧ n ≤ 0x07d0) ∨
      ((fc = 0x03 ∨ fc = 0x04) ∧ data = u16ToBe a ++ u16ToBe n ∧ 1 ≤ n ∧ n ≤ 0x007d) ∨
      (fc = 0x0f ∧ ∃ payload : Bytes, data = writeData a n payload ∧
        payload.length = (n.toNat + 7) / 8 ∧ 1 ≤ n ∧ n ≤ 0x07b0) ∨
      (fc = 0x10 ∧ ∃ payload : Bytes, data = writeData a n payload ∧
        payload.length = n.toNat * 2 ∧ 1 ≤ n ∧ n ≤ 0x007b) := by
  constructor
  · intro h
    cases h with
    | readBits hfc h1 hn => exact .inl ⟨hfc, rfl, h1, hn⟩
    | readRegisters hfc h1 hn => exact .inr (.inl ⟨hfc, rfl, h1, hn⟩)
    | writeBits hlen h1 hn => exact .inr (.inr (.inl ⟨rfl, _, rfl, hlen, h1, hn⟩))
    | writeRegisters hlen h1 hn => exact .inr (.inr (.inr ⟨rfl, _, rfl, hlen, h1, hn⟩))
  · rintro (⟨hfc, rfl, h1, hn⟩ | ⟨hfc, rfl, h1, hn⟩ | ⟨rfl, payload, rfl, hlen, h1, hn⟩ |
      ⟨rfl, payload, rfl, hlen, h1, hn⟩)
    · exact .readBits hfc h1 hn
    · exact .readRegisters hfc h1 hn
    · exact .writeBits hlen h1 hn
    · exact .writeRegisters hlen h1 hn

/-- A byte count after `k` bytes, and as many bytes as it counts. -/
theorem exists_counted {data : Bytes} {k : Nat} (h : k + 1 ≤ data.length)
    (hcount : data.length = k + 1 + (data.getD k 0).toNat) :
    ∃ head payload : Bytes, data = head ++ UInt8.ofNat payload.length :: payload ∧
      head.length = k ∧ payload.length < 256 := by
  have hk : k < data.length := by omega
  have hget : data.getD k 0 = data[k] := (List.getElem_eq_getD 0).symm
  have hpayload : (data.drop (k + 1)).length = (data[k]).toNat := by
    rw [← hget, List.length_drop]
    omega
  refine ⟨data.take k, data.drop (k + 1), ?_, List.length_take_of_le (by omega), ?_⟩
  · rw [hpayload, UInt8.ofNat_toNat, ← List.drop_eq_getElem_cons hk, List.take_append_drop]
  · rw [hpayload]
    exact UInt8.toNat_lt _

/-- The data of a write request whose byte count is right. -/
theorem exists_writeData {data : Bytes} (h : 6 ≤ data.length)
    (hcount : data.length = 5 + (data.getD 4 0).toNat) :
    ∃ (a n : UInt16) (payload : Bytes), data = writeData a n payload ∧ 0 < payload.length ∧
      payload.length < 256 := by
  obtain ⟨head, payload, rfl, hhead, hlt⟩ := exists_counted (k := 4) (by omega) hcount
  obtain ⟨a, n, rest, rfl, hrest⟩ := exists_words (k := 0) hhead
  obtain rfl := List.length_eq_zero_iff.mp hrest
  refine ⟨a, n, payload, ?_, ?_, hlt⟩
  · simp only [writeData, List.append_nil, List.append_assoc, List.singleton_append]
  · rw [List.length_append, hhead, List.length_cons] at h
    omega

/-- The data of an FC 23 request whose byte count is right. -/
theorem exists_readWriteData {data : Bytes} (h : 10 ≤ data.length)
    (hcount : data.length = 9 + (data.getD 8 0).toNat) :
    ∃ (r : ReadWrite) (payload : Bytes), data = readWriteData r payload ∧ 0 < payload.length ∧
      payload.length < 256 := by
  obtain ⟨head, payload, rfl, hhead, hlt⟩ := exists_counted (k := 8) (by omega) hcount
  obtain ⟨readAddress, readLength, tail, rfl, htail⟩ := exists_words (k := 4) hhead
  obtain ⟨writeAddress, writeLength, rest, rfl, hrest⟩ := exists_words (k := 0) htail
  obtain rfl := List.length_eq_zero_iff.mp hrest
  refine ⟨⟨readAddress, readLength, writeAddress, writeLength⟩, payload, ?_, ?_, hlt⟩
  · simp only [readWriteData, List.append_nil, List.append_assoc, List.singleton_append]
  · rw [List.length_append, hhead, List.length_cons] at h
    omega

theorem writeData_inj {a a' n n' : UInt16} {payload payload' : Bytes}
    (h : writeData a n payload = writeData a' n' payload') : a = a' ∧ n = n' ∧ payload = payload' := by
  simp only [writeData, List.append_assoc] at h
  obtain ⟨ha, hrest⟩ := u16ToBe_append_inj h
  obtain ⟨hn, htail⟩ := u16ToBe_append_inj hrest
  exact ⟨ha, hn, (List.cons.inj htail).2⟩

theorem readWriteData_inj {r r' : ReadWrite} {payload payload' : Bytes}
    (h : readWriteData r payload = readWriteData r' payload') : r = r' ∧ payload = payload' := by
  obtain ⟨readAddress, readLength, writeAddress, writeLength⟩ := r
  obtain ⟨readAddress', readLength', writeAddress', writeLength'⟩ := r'
  simp only [readWriteData, List.append_assoc] at h
  obtain ⟨h1, h⟩ := u16ToBe_append_inj h
  obtain ⟨h2, h⟩ := u16ToBe_append_inj h
  obtain ⟨h3, h⟩ := u16ToBe_append_inj h
  obtain ⟨h4, h⟩ := u16ToBe_append_inj h
  exact ⟨by rw [h1, h2, h3, h4], (List.cons.inj h).2⟩

/-- A byte count that counts the payload gives data of the prescribed length. -/
theorem writeData_prescribed (a n : UInt16) {payload : Bytes} (hpos : 0 < payload.length)
    (hlt : payload.length < 256) :
    6 ≤ (writeData a n payload).length ∧
      (writeData a n payload).length = 5 + ((writeData a n payload).getD 4 0).toNat := by
  have hget : (writeData a n payload).getD 4 0 = UInt8.ofNat payload.length := rfl
  rw [hget, toNat_byteCount hlt, length_writeData]
  omega

theorem readWriteData_prescribed (r : ReadWrite) {payload : Bytes} (hpos : 0 < payload.length)
    (hlt : payload.length < 256) :
    10 ≤ (readWriteData r payload).length ∧
      (readWriteData r payload).length = 9 + ((readWriteData r payload).getD 8 0).toNat := by
  have hget : (readWriteData r payload).getD 8 0 = UInt8.ofNat payload.length := rfl
  rw [hget, toNat_byteCount hlt, length_readWriteData]
  omega

theorem overflows_readBits {fc : UInt8} {data : Bytes} (hfc : fc = 0x01 ∨ fc = 0x02) :
    Overflows fc data ↔ ∃ a n : UInt16, data = u16ToBe a ++ u16ToBe n ∧ (1 ≤ n ∧ n ≤ 0x07d0) ∧
      65536 ≤ a.toNat + n.toNat := by
  rcases hfc with rfl | rfl <;> simp [Overflows, windowRequest_iff, and_assoc]

theorem overflows_readRegisters {fc : UInt8} {data : Bytes} (hfc : fc = 0x03 ∨ fc = 0x04) :
    Overflows fc data ↔ ∃ a n : UInt16, data = u16ToBe a ++ u16ToBe n ∧ (1 ≤ n ∧ n ≤ 0x007d) ∧
      65536 ≤ a.toNat + n.toNat := by
  rcases hfc with rfl | rfl <;> simp [Overflows, windowRequest_iff, and_assoc]

theorem overflows_writeBits {data : Bytes} :
    Overflows 0x0f data ↔ ∃ (a n : UInt16) (payload : Bytes), data = writeData a n payload ∧
      payload.length = (n.toNat + 7) / 8 ∧ (1 ≤ n ∧ n ≤ 0x07b0) ∧ 65536 ≤ a.toNat + n.toNat := by
  simp [Overflows, windowRequest_iff, ← exists_and_right, and_assoc]

theorem overflows_writeRegisters {data : Bytes} :
    Overflows 0x10 data ↔ ∃ (a n : UInt16) (payload : Bytes), data = writeData a n payload ∧
      payload.length = n.toNat * 2 ∧ (1 ≤ n ∧ n ≤ 0x007b) ∧ 65536 ≤ a.toNat + n.toNat := by
  simp [Overflows, windowRequest_iff, ← exists_and_right, and_assoc]

theorem overflows_readWrite {data : Bytes} :
    Overflows 0x17 data ↔ ∃ (r : ReadWrite) (payload : Bytes), data = readWriteData r payload ∧
      r.Within ∧ payload.length = r.writeLength.toNat * 2 ∧ r.Overflows := by
  simp [Overflows, windowRequest_iff]

/-- Only the function codes with windows overflow. -/
theorem overflows_code {fc : UInt8} {data : Bytes} (h : Overflows fc data) :
    fc = 0x01 ∨ fc = 0x02 ∨ fc = 0x03 ∨ fc = 0x04 ∨ fc = 0x0f ∨ fc = 0x10 ∨ fc = 0x17 := by
  simp only [Overflows, windowRequest_iff] at h
  tauto

theorem ignored_iff_four {fc : UInt8} {data : Bytes} (hfc : fc = 0x01 ∨ fc = 0x02 ∨ fc = 0x03 ∨
    fc = 0x04 ∨ fc = 0x05 ∨ fc = 0x06) : Ignored fc data ↔ data.length ≠ 4 := by
  rcases hfc with rfl | rfl | rfl | rfl | rfl | rfl <;> simp [Ignored, LengthPrescribed]

theorem ignored_iff_write {fc : UInt8} {data : Bytes} (hfc : fc = 0x0f ∨ fc = 0x10) :
    Ignored fc data ↔ ¬ (6 ≤ data.length ∧ data.length = 5 + (data.getD 4 0).toNat) := by
  rcases hfc with rfl | rfl <;> simp [Ignored, LengthPrescribed]

theorem ignored_iff_serverId {data : Bytes} : Ignored 0x11 data ↔ data.length ≠ 0 := by
  simp [Ignored, LengthPrescribed]

theorem ignored_iff_mask {data : Bytes} : Ignored 0x16 data ↔ data.length ≠ 6 := by
  simp [Ignored, LengthPrescribed]

theorem ignored_iff_readWrite {data : Bytes} :
    Ignored 0x17 data ↔ ¬ (10 ≤ data.length ∧ data.length = 9 + (data.getD 8 0).toNat) := by
  simp [Ignored, LengthPrescribed]

/-- Function codes without a handler of their own prescribe no length. -/
theorem not_ignored {fc : UInt8} {data : Bytes} (hfc : ¬ BuiltIn fc ∨ fc = 0x2b) :
    ¬ Ignored fc data := by
  rintro ⟨hne, hlength⟩
  have hcode := hfc.resolve_right hne
  simp only [BuiltIn, not_or] at hcode
  simp [LengthPrescribed, hcode] at hlength

/-- A request that overflows has the prescribed length. -/
theorem Overflows.prescribed {fc : UInt8} {data : Bytes} (h : Overflows fc data) :
    LengthPrescribed fc data := by
  obtain ⟨a, n, hrequest, -⟩ | ⟨rfl, r, payload, rfl, hwithin, hcount, -⟩ := h
  · rcases windowRequest_iff.mp hrequest with ⟨hfc, rfl, -⟩ | ⟨hfc, rfl, -⟩ |
      ⟨rfl, payload, rfl, hcount, h1, hn⟩ | ⟨rfl, payload, rfl, hcount, h1, hn⟩
    · rcases hfc with rfl | rfl <;> exact rfl
    · rcases hfc with rfl | rfl <;> exact rfl
    · have h1 : 1 ≤ n.toNat := UInt16.le_iff_toNat_le.mp h1
      have hn : n.toNat ≤ 1968 := UInt16.le_iff_toNat_le.mp hn
      exact writeData_prescribed a n (by omega) (by omega)
    · have h1 : 1 ≤ n.toNat := UInt16.le_iff_toNat_le.mp h1
      have hn : n.toNat ≤ 123 := UInt16.le_iff_toNat_le.mp hn
      exact writeData_prescribed a n (by omega) (by omega)
  · have h1 : 1 ≤ r.writeLength.toNat := UInt16.le_iff_toNat_le.mp hwithin.2.1
    have hn : r.writeLength.toNat ≤ 121 := UInt16.le_iff_toNat_le.mp hwithin.2.2
    exact readWriteData_prescribed r (by omega) (by omega)

end Requests

/-! ## Decisions -/

/-- How the checks of a handler end: when they panic, when they ignore the request, and what they
accept. -/
inductive Decided (panics ignored : Prop) (accepted : α → Prop) : Except Panic (Decision α) → Prop
  | panicked (p : Panic) (h : panics) : Decided panics ignored accepted (.error p)
  | ignored (hp : ¬ panics) (h : ignored) : Decided panics ignored accepted (.ok .ignore)
  | refused (code : ErrorCode) (hp : ¬ panics) (hi : ¬ ignored) :
    Decided panics ignored accepted (.ok (.refuse code))
  | accepted (arguments : α) (hp : ¬ panics) (hi : ¬ ignored) (h : accepted arguments) :
    Decided panics ignored accepted (.ok (.accept arguments))

theorem Decided.imp {panics panics' ignored ignored' : Prop} {accepted accepted' : α → Prop}
    {d : Except Panic (Decision α)} (h : Decided panics ignored accepted d)
    (hp : panics ↔ panics') (hi : ignored ↔ ignored') (ha : ∀ a, accepted a → accepted' a) :
    Decided panics' ignored' accepted' d := by
  cases h with
  | panicked p h => exact .panicked p (hp.mp h)
  | ignored hp' h => exact .ignored (mt hp.mpr hp') (hi.mp h)
  | refused code hp' hi' => exact .refused code (mt hp.mpr hp') (mt hi.mpr hi')
  | accepted a hp' hi' h => exact .accepted a (mt hp.mpr hp') (mt hi.mpr hi') (ha a h)

section Decisions

theorem ok_bind {ε : Type} (a : α) (f : α → Except ε β) : (Except.ok a >>= f) = f a := rfl

variable {checks : Bool} {limit : UInt16} {ranges : List (UInt16 × UInt16)} {data : Bytes}

/-- The range check panics in a debug build on a window with no address after it, and else decides. -/
theorem checkWindow_cases (checks : Bool) (a n : UInt16) (ranges : List (UInt16 × UInt16)) :
    (checks = true ∧ 65536 ≤ a.toNat + n.toNat) ∧
        checkWindow checks a n ranges = .error .arithmeticOverflow ∨
      ¬ (checks = true ∧ 65536 ≤ a.toNat + n.toNat) ∧
        ∃ b, checkWindow checks a n ranges = .ok b := by
  rw [checkWindow, addU16]
  by_cases h : checks = true ∧ 65536 ≤ a.toNat + n.toNat
  · rw [if_pos (by simpa using h)]
    exact .inl ⟨h, rfl⟩
  · rw [if_neg (by simpa using h)]
    exact .inr ⟨h, _, rfl⟩

/-- A window that passed the checks before the range check. -/
theorem decided_window {panics : Prop} {a n : UInt16}
    (hp : panics ↔ checks = true ∧ 65536 ≤ a.toNat + n.toNat) {ignored : Prop} (hi : ¬ ignored)
    {accepted : UInt16 × UInt16 → Prop} (ha : ¬ panics → accepted (a, n)) :
    Decided panics ignored accepted (do
      if ← checkWindow checks a n ranges then return .accept (a, n)
      else return .refuse .illegalDataAddress) := by
  obtain ⟨hover, heq⟩ | ⟨hover, b, heq⟩ := checkWindow_cases checks a n ranges
  · rw [heq]
    exact .panicked _ (hp.mpr hover)
  · have hno : ¬ panics := mt hp.mp hover
    rw [heq]
    cases b with
    | false => exact .refused _ hno hi
    | true => exact .accepted _ hno hi (ha hno)

/-- The checks of FC 1 to FC 4. -/
theorem readWindow_decided (checks : Bool) (limit : UInt16) (ranges : List (UInt16 × UInt16))
    (data : Bytes) :
    Decided
      (checks = true ∧ ∃ a n : UInt16, data = u16ToBe a ++ u16ToBe n ∧ (1 ≤ n ∧ n ≤ limit) ∧
        65536 ≤ a.toNat + n.toNat)
      (data.length ≠ 4) (fun p : UInt16 × UInt16 => 1 ≤ p.2 ∧ p.2 ≤ limit)
      (readWindow checks limit ranges data) := by
  by_cases hlen : data.length = 4
  · obtain ⟨a, n, rest, rfl, hrest⟩ := exists_words (k := 0) hlen
    obtain rfl := List.length_eq_zero_iff.mp hrest
    rw [List.append_nil] at hlen ⊢
    have hpanics : (checks = true ∧ ∃ a' n' : UInt16,
        u16ToBe a ++ u16ToBe n = u16ToBe a' ++ u16ToBe n' ∧ (1 ≤ n' ∧ n' ≤ limit) ∧
          65536 ≤ a'.toNat + n'.toNat) ↔
        checks = true ∧ (1 ≤ n ∧ n ≤ limit) ∧ 65536 ≤ a.toNat + n.toNat := by
      refine and_congr_right fun _ => ⟨?_, fun h => ⟨a, n, rfl, h⟩⟩
      rintro ⟨a', n', heq, h⟩
      obtain ⟨rfl, hrest⟩ := u16ToBe_append_inj heq
      obtain rfl := u16ToBe_injective hrest
      exact h
    by_cases hn : 1 ≤ n ∧ n ≤ limit
    · rw [readWindow_eq hn.1 hn.2]
      exact decided_window (hpanics.trans (by rw [and_iff_right hn])) (not_not_intro hlen)
        fun _ => hn
    · rw [readWindow_words, if_pos hn]
      exact .refused _ (fun h => hn (hpanics.mp h).2.1) (not_not_intro hlen)
  · have heq : readWindow checks limit ranges data = .ok .ignore := by
      rw [readWindow, if_pos hlen]
    rw [heq]
    refine .ignored ?_ hlen
    rintro ⟨-, a, n, rfl, -⟩
    exact hlen rfl

theorem byteCount_ne_iff {k m : Nat} (hk : k < 256) (hm : m < 256) :
    (UInt8.ofNat k).toUInt16 ≠ UInt16.ofNat m ↔ k ≠ m := by
  rw [toUInt16_byteCount hk, ne_eq, ne_eq, ← UInt16.toNat_inj,
    UInt16.toNat_ofNat_of_lt' (Nat.lt_trans hk (by decide)),
    UInt16.toNat_ofNat_of_lt' (Nat.lt_trans hm (by decide))]

/-- The checks of FC 15 and FC 16, where `count` is the byte count a quantity calls for. -/
theorem writeWindow_decided {checks : Bool} {limit : UInt16}
    {byteCount : UInt16 → Except Panic UInt16} {count : Nat → Nat}
    (hbyteCount : ∀ n : UInt16, 1 ≤ n → n ≤ limit →
      byteCount n = .ok (UInt16.ofNat (count n.toNat)) ∧ 0 < count n.toNat ∧ count n.toNat < 256)
    (ranges : List (UInt16 × UInt16)) (data : Bytes) :
    Decided
      (checks = true ∧ ∃ (a n : UInt16) (payload : Bytes), data = writeData a n payload ∧
        payload.length = count n.toNat ∧ (1 ≤ n ∧ n ≤ limit) ∧ 65536 ≤ a.toNat + n.toNat)
      (¬ (6 ≤ data.length ∧ data.length = 5 + (data.getD 4 0).toNat))
      (fun p : UInt16 × UInt16 => (1 ≤ p.2 ∧ p.2 ≤ limit) ∧ data.length = 5 + count p.2.toNat ∧
        ¬ (checks = true ∧ 65536 ≤ p.1.toNat + p.2.toNat))
      (writeWindow checks limit byteCount ranges data) := by
  by_cases hlen : 6 ≤ data.length ∧ data.length = 5 + (data.getD 4 0).toNat
  · obtain ⟨a, n, payload, rfl, hpos, hlt⟩ := exists_writeData hlen.1 hlen.2
    have hpanics : (checks = true ∧ ∃ (a' n' : UInt16) (payload' : Bytes),
        writeData a n payload = writeData a' n' payload' ∧ payload'.length = count n'.toNat ∧
          (1 ≤ n' ∧ n' ≤ limit) ∧ 65536 ≤ a'.toNat + n'.toNat) ↔
        checks = true ∧ payload.length = count n.toNat ∧ (1 ≤ n ∧ n ≤ limit) ∧
          65536 ≤ a.toNat + n.toNat := by
      refine and_congr_right fun _ => ⟨?_, fun h => ⟨a, n, payload, rfl, h⟩⟩
      rintro ⟨a', n', payload', heq, h⟩
      obtain ⟨rfl, rfl, rfl⟩ := writeData_inj heq
      exact h
    rw [writeWindow_writeData hpos hlt]
    by_cases hn : 1 ≤ n ∧ n ≤ limit
    · obtain ⟨hcount, -, hmax⟩ := hbyteCount n hn.1 hn.2
      rw [if_neg (not_not_intro hn), hcount]
      by_cases heq : payload.length = count n.toNat
      · have hsame : ¬ (UInt8.ofNat payload.length).toUInt16 ≠ UInt16.ofNat (count n.toNat) :=
          fun h => (byteCount_ne_iff hlt hmax).mp h heq
        rw [ok_bind, if_neg hsame]
        refine decided_window (hpanics.trans ?_) (not_not_intro hlen) ?_
        · rw [and_iff_right heq, and_iff_right hn]
        · intro hno
          refine ⟨hn, (length_writeData a n payload).trans (by rw [heq]), ?_⟩
          intro hover
          exact hno (hpanics.mpr ⟨hover.1, heq, hn, hover.2⟩)
      · have hdiffers : (UInt8.ofNat payload.length).toUInt16 ≠ UInt16.ofNat (count n.toNat) :=
          (byteCount_ne_iff hlt hmax).mpr heq
        rw [ok_bind, if_pos hdiffers]
        exact .refused _ (fun h => heq (hpanics.mp h).2.1) (not_not_intro hlen)
    · rw [if_pos hn]
      exact .refused _ (fun h => hn (hpanics.mp h).2.2.1) (not_not_intro hlen)
  · have hignored : writeWindow checks limit byteCount ranges data = .ok .ignore := by
      rw [writeWindow]
      by_cases hshort : data.length < 6
      · rw [if_pos hshort]
      · rw [if_neg hshort, index_of_lt (by omega) 0]
        exact if_pos fun h => hlen ⟨by omega, h⟩
    rw [hignored]
    refine .ignored ?_ hlen
    rintro ⟨-, a, n, payload, rfl, hcount, hn, -⟩
    obtain ⟨-, hpos, hmax⟩ := hbyteCount n hn.1 hn.2
    exact hlen (writeData_prescribed a n (by omega) (by omega))

/-- The range check of FC 23 panics in a debug build when one of its windows has no address after
it, and else decides. -/
theorem checkReadWrite_cases (checks : Bool) (r : ReadWrite) (ranges : List (UInt16 × UInt16)) :
    (checks = true ∧ r.Overflows) ∧
        checkReadWrite checks r ranges = .error .arithmeticOverflow ∨
      ¬ (checks = true ∧ r.Overflows) ∧ ∃ b, checkReadWrite checks r ranges = .ok b := by
  rw [checkReadWrite, ReadWrite.Overflows, addU16, addU16]
  by_cases hread : checks = true ∧ 65536 ≤ r.readAddress.toNat + r.readLength.toNat
  · rw [if_pos (by simpa using hread)]
    exact .inl ⟨⟨hread.1, .inl hread.2⟩, rfl⟩
  · rw [if_neg (by simpa using hread)]
    by_cases hwrite : checks = true ∧ 65536 ≤ r.writeAddress.toNat + r.writeLength.toNat
    · rw [if_pos (by simpa using hwrite)]
      exact .inl ⟨⟨hwrite.1, .inr hwrite.2⟩, rfl⟩
    · rw [if_neg (by simpa using hwrite)]
      refine .inr ⟨?_, _, rfl⟩
      rintro ⟨hchecks, hover | hover⟩
      · exact hread ⟨hchecks, hover⟩
      · exact hwrite ⟨hchecks, hover⟩

theorem registerCount (checks : Bool) {n : UInt16} (h : n ≤ 0x007b) :
    mulU16 checks n 2 = .ok (UInt16.ofNat (n.toNat * 2)) ∧ n.toNat * 2 < 256 := by
  have hn : n.toNat ≤ 123 := UInt16.le_iff_toNat_le.mp h
  exact ⟨registerByteCount_eq (by omega), by omega⟩

/-- The checks of FC 23. -/
theorem readWrite_decided (checks : Bool) (ranges : List (UInt16 × UInt16)) (data : Bytes) :
    Decided
      (checks = true ∧ ∃ (r : ReadWrite) (payload : Bytes), data = readWriteData r payload ∧
        r.Within ∧ payload.length = r.writeLength.toNat * 2 ∧ r.Overflows)
      (¬ (10 ≤ data.length ∧ data.length = 9 + (data.getD 8 0).toNat))
      (fun r : ReadWrite => r.Within ∧ data.length = 9 + r.writeLength.toNat * 2 ∧
        ¬ (checks = true ∧ r.Overflows))
      (readWrite checks ranges data) := by
  by_cases hlen : 10 ≤ data.length ∧ data.length = 9 + (data.getD 8 0).toNat
  · obtain ⟨r, payload, rfl, hpos, hlt⟩ := exists_readWriteData hlen.1 hlen.2
    have hpanics : (checks = true ∧ ∃ (r' : ReadWrite) (payload' : Bytes),
        readWriteData r payload = readWriteData r' payload' ∧ r'.Within ∧
          payload'.length = r'.writeLength.toNat * 2 ∧ r'.Overflows) ↔
        checks = true ∧ r.Within ∧ payload.length = r.writeLength.toNat * 2 ∧ r.Overflows := by
      refine and_congr_right fun _ => ⟨?_, fun h => ⟨r, payload, rfl, h⟩⟩
      rintro ⟨r', payload', heq, h⟩
      obtain ⟨rfl, rfl⟩ := readWriteData_inj heq
      exact h
    rw [readWrite_readWriteData hpos hlt]
    by_cases hread : 1 ≤ r.readLength ∧ r.readLength ≤ 0x007d
    · by_cases hwrite : 1 ≤ r.writeLength ∧ r.writeLength ≤ 0x0079
      · have hmax : r.writeLength ≤ 0x007b := UInt16.le_trans hwrite.2 (by decide)
        obtain ⟨hcount, hsmall⟩ := registerCount checks hmax
        rw [if_neg (not_not_intro hread), if_neg (not_not_intro hwrite), hcount, ok_bind]
        by_cases heq : payload.length = r.writeLength.toNat * 2
        · rw [if_neg fun h => (byteCount_ne_iff hlt hsmall).mp h heq]
          obtain ⟨hover, hcheck⟩ | ⟨hover, b, hcheck⟩ := checkReadWrite_cases checks r ranges
          · rw [hcheck]
            exact .panicked _ (hpanics.mpr ⟨hover.1, ⟨hread, hwrite⟩, heq, hover.2⟩)
          · have hno : ¬ _ := fun h => hover ⟨(hpanics.mp h).1, (hpanics.mp h).2.2.2⟩
            rw [hcheck]
            cases b with
            | false => exact .refused _ hno (not_not_intro hlen)
            | true =>
              refine .accepted _ hno (not_not_intro hlen) ⟨⟨hread, hwrite⟩, ?_, hover⟩
              rw [length_readWriteData, heq]
        · rw [if_pos ((byteCount_ne_iff hlt hsmall).mpr heq)]
          exact .refused _ (fun h => heq (hpanics.mp h).2.2.1) (not_not_intro hlen)
      · rw [if_neg (not_not_intro hread), if_pos hwrite]
        exact .refused _ (fun h => hwrite (hpanics.mp h).2.1.2) (not_not_intro hlen)
    · rw [if_pos hread]
      exact .refused _ (fun h => hread (hpanics.mp h).2.1.1) (not_not_intro hlen)
  · have hignored : readWrite checks ranges data = .ok .ignore := by
      rw [readWrite]
      by_cases hshort : data.length < 10
      · rw [if_pos hshort]
      · rw [if_neg hshort, index_of_lt (by omega) 0]
        exact if_pos fun h => hlen ⟨by omega, h⟩
    rw [hignored]
    refine .ignored ?_ hlen
    rintro ⟨-, r, payload, rfl, hwithin, hcount, -⟩
    have hpos : 1 ≤ r.writeLength.toNat := UInt16.le_iff_toNat_le.mp hwithin.2.1
    have hmax : r.writeLength.toNat ≤ 121 := UInt16.le_iff_toNat_le.mp hwithin.2.2
    exact hlen (readWriteData_prescribed r (by omega) (by omega))

/-- Checks that refuse or accept whatever has the right length. -/
theorem decided_of_length {wrong : Prop} {d : Except Panic (Decision α)}
    (hwrong : wrong → d = .ok .ignore)
    (hright : ¬ wrong → (∃ code, d = .ok (.refuse code)) ∨ ∃ a, d = .ok (.accept a)) :
    Decided False wrong (fun _ => True) d := by
  by_cases h : wrong
  · rw [hwrong h]
    exact .ignored not_false h
  · obtain ⟨code, rfl⟩ | ⟨a, rfl⟩ := hright h
    · exact .refused code not_false h
    · exact .accepted a not_false h trivial

/-- Four bytes are an address and a value. -/
theorem exists_address_value {data : Bytes} (h : data.length = 4) :
    ∃ a value, u16At data 0 = .ok a ∧ u16At data 2 = .ok value := by
  obtain ⟨a, value, rest, rfl, hrest⟩ := exists_words (k := 0) h
  obtain rfl := List.length_eq_zero_iff.mp hrest
  exact ⟨a, value, u16At_toBe a _, u16At_toBe value []⟩

/-- The checks of FC 5. -/
theorem coilWrite_decided (ranges : List (UInt16 × UInt16)) (data : Bytes) :
    Decided False (data.length ≠ 4) (fun _ => True) (coilWrite ranges data) := by
  apply decided_of_length
  · exact fun h => by rw [coilWrite, if_pos h]
  · intro h
    obtain ⟨a, value, haddress, hvalue⟩ := exists_address_value (not_not.mp h)
    rw [coilWrite, if_neg h, haddress, hvalue, ok_bind, ok_bind]
    split
    · exact .inl ⟨_, rfl⟩
    · split
      · exact .inr ⟨_, rfl⟩
      · exact .inl ⟨_, rfl⟩

/-- The checks of FC 6. -/
theorem registerWrite_decided (ranges : List (UInt16 × UInt16)) (data : Bytes) :
    Decided False (data.length ≠ 4) (fun _ => True) (registerWrite ranges data) := by
  apply decided_of_length
  · exact fun h => by rw [registerWrite, if_pos h]
  · intro h
    obtain ⟨a, value, haddress, hvalue⟩ := exists_address_value (not_not.mp h)
    rw [registerWrite, if_neg h, haddress, hvalue, ok_bind, ok_bind]
    split
    · exact .inr ⟨_, rfl⟩
    · exact .inl ⟨_, rfl⟩

/-- The checks of FC 22. -/
theorem registerMask_decided (ranges : List (UInt16 × UInt16)) (data : Bytes) :
    Decided False (data.length ≠ 6) (fun _ => True) (registerMask ranges data) := by
  apply decided_of_length
  · exact fun h => by rw [registerMask, if_pos h]
  · intro h
    obtain ⟨a, andMask, tail, rfl, htail⟩ := exists_words (k := 2) (not_not.mp h)
    obtain ⟨orMask, rest, rfl, hrest⟩ := exists_word (k := 0) htail
    obtain rfl := List.length_eq_zero_iff.mp hrest
    rw [List.append_nil] at h ⊢
    have haddress : u16At (u16ToBe a ++ u16ToBe andMask ++ u16ToBe orMask) 0 = .ok a :=
      u16At_toBe a _
    have hand : u16At (u16ToBe a ++ u16ToBe andMask ++ u16ToBe orMask) 2 = .ok andMask :=
      u16At_toBe andMask (u16ToBe orMask)
    have hor : u16At (u16ToBe a ++ u16ToBe andMask ++ u16ToBe orMask) 4 = .ok orMask :=
      u16At_toBe orMask []
    rw [registerMask, if_neg h, haddress, hand, hor, ok_bind, ok_bind, ok_bind]
    split
    · exact .inr ⟨_, rfl⟩
    · exact .inl ⟨_, rfl⟩

end Decisions

end RsModbus.Slave
