import RsModbus.Laws.Decoders

/-!
# What the ASCII checksum detects

`Ascii.lrc_distance`: two frames of one length that `decode` accepts, and that differ in one character
at most, carry the same data unit; so a wrong character is either the other case of its digit, or the
frame is rejected. Two wrong characters can always go undetected: the LRC is a sum, in which the high
bits of two bytes cancel out.
-/

namespace RsModbus.Ascii

open Library

/-- The number of characters in which a text of the same length differs. -/
def charDistance (text text' : Bytes) : Nat := (List.zipWith (· != ·) text text').count true

theorem charDistance_cons (c c' : UInt8) (text text' : Bytes) :
    charDistance (c :: text) (c' :: text') = charDistance text text' + if c = c' then 0 else 1 := by
  rw [charDistance, charDistance, List.zipWith_cons_cons, List.count_cons]
  by_cases h : c = c' <;> simp [h]

theorem eq_of_charDistance : ∀ {text text' : Bytes}, text.length = text'.length →
    charDistance text text' = 0 → text = text'
  | [], [], _, _ => rfl
  | c :: text, c' :: text', hlen, h => by
    rw [charDistance_cons] at h
    have hc : c = c' := by
      by_contra hne
      rw [if_neg hne] at h
      omega
    rw [hc, eq_of_charDistance (Nat.succ.inj hlen) (by omega)]

theorem charDistance_append {text text' : Bytes} (hlen : text.length = text'.length)
    (more more' : Bytes) : charDistance (text ++ more) (text' ++ more') =
      charDistance text text' + charDistance more more' := by
  rw [charDistance, List.zipWith_append hlen, List.count_append]
  rfl

theorem charDistance_self (text : Bytes) : charDistance text text = 0 := by
  induction text with
  | nil => rfl
  | cons c text ih => rw [charDistance_cons, ih, if_pos rfl]

/-! ## The sum -/

theorem foldl_add (a : UInt8) (bytes : Bytes) :
    bytes.foldl (· + ·) a = a + bytes.foldl (· + ·) 0 := by
  induction bytes generalizing a with
  | nil => grind
  | cons b bytes ih =>
    rw [List.foldl_cons, List.foldl_cons, ih (a + b), ih (0 + b)]
    grind

theorem lrc_cons (b : UInt8) (bytes : Bytes) : lrc (b :: bytes) = lrc bytes - b := by
  rw [lrc, lrc, List.foldl_cons, foldl_add]
  grind

theorem lrc_append (bytes bytes' : Bytes) : lrc (bytes ++ bytes') = lrc bytes + lrc bytes' := by
  rw [lrc, lrc, lrc, List.foldl_append, foldl_add]
  grind

/-- A body and its LRC sum to nothing. -/
theorem lrc_checked (body : Bytes) : lrc (body ++ [lrc body]) = 0 := by
  rw [lrc_append, lrc_cons]
  show lrc body + (lrc [] - lrc body) = 0
  grind [lrc]

/-! ## Digits -/

theorem HexPairs.unique {p bytes bytes' : Bytes} (h : HexPairs p bytes) (h' : HexPairs p bytes') :
    bytes = bytes' := by
  induction h generalizing bytes' with
  | nil => cases h'; rfl
  | cons hb _ ih =>
    obtain _ | ⟨hb', h'⟩ := h'
    rw [Option.some.inj (hb.symm.trans hb'), ih h']

/-- One wrong digit changes one byte, which changes the sum, or none. -/
theorem HexPairs.eq_of_lrc {p p' bytes bytes' : Bytes} (h : HexPairs p bytes)
    (h' : HexPairs p' bytes') (hlen : p.length = p'.length) (hdistance : charDistance p p' ≤ 1)
    (hlrc : lrc bytes = lrc bytes') : bytes = bytes' := by
  induction h generalizing p' bytes' with
  | nil =>
    obtain rfl := List.eq_nil_of_length_eq_zero hlen.symm
    exact HexPairs.nil.unique h'
  | @cons hi lo b p bytes hb h ih =>
    obtain _ | @⟨hi', lo', b', p', bytes', hb', h'⟩ := h'
    · cases hlen
    have hlen' : p.length = p'.length := Nat.succ.inj (Nat.succ.inj hlen)
    rw [charDistance_cons, charDistance_cons] at hdistance
    rw [lrc_cons, lrc_cons] at hlrc
    by_cases hsame : hi = hi' ∧ lo = lo'
    · obtain ⟨rfl, rfl⟩ := hsame
      obtain rfl := Option.some.inj (hb.symm.trans hb')
      rw [ih h' hlen' (by omega) (by grind)]
    · have hrest : charDistance p p' = 0 := by
        rw [not_and_or] at hsame
        rcases hsame with hne | hne <;> rw [if_neg hne] at hdistance <;> omega
      obtain rfl := eq_of_charDistance hlen' hrest
      obtain rfl := h.unique h'
      have hbyte : b = b' := by grind
      rw [hbyte]

theorem HexPairs.append {p q bytes bytes' : Bytes} (h : HexPairs p bytes) (h' : HexPairs q bytes') :
    HexPairs (p ++ q) (bytes ++ bytes') := by
  induction h with
  | nil => exact h'
  | cons hb _ ih => exact .cons hb ih

/-- The digits of the last byte. -/
theorem HexPairs.last {p bytes : Bytes} {b : UInt8} (h : HexPairs p (bytes ++ [b])) :
    ∃ q hi lo, p = q ++ [hi, lo] ∧ HexPairs q bytes ∧ hexDecodeByte hi lo = some b := by
  induction bytes generalizing p with
  | nil =>
    obtain _ | ⟨hb, hnil⟩ := h
    cases hnil
    exact ⟨[], _, _, rfl, .nil, hb⟩
  | cons first bytes ih =>
    obtain _ | ⟨hfirst, h⟩ := h
    obtain ⟨q, hi, lo, rfl, hq, hb⟩ := ih h
    exact ⟨_ :: _ :: q, hi, lo, rfl, .cons hfirst hq, hb⟩

/-- The digit with the other high bit. -/
def flipDigit (c : UInt8) : UInt8 := hexEncode ((hexDigit c).getD 0 ^^^ 8)

theorem hexDigit_flipDigit (c : UInt8) : (hexDigit c).isSome →
    hexDigit (flipDigit c) = (hexDigit c).map (· ^^^ 8) ∧ flipDigit c ≠ c := by
  revert c
  exact forall_byte (by decide +kernel)

theorem hexDigit_lt (c : UInt8) : ∀ x ∈ hexDigit c, x < 16 := by
  have hall : ∀ c, (hexDigit c).all (· < 16) = true := forall_byte (by decide +kernel)
  intro x hx
  have hc := hall c
  rw [Option.mem_def.mp hx] at hc
  exact of_decide_eq_true hc

/-- The high bit of the high digit counts 128. -/
theorem hexDecodeByte_flipDigit {hi lo b : UInt8} (h : hexDecodeByte hi lo = some b) :
    hexDecodeByte (flipDigit hi) lo = some (b + 128) ∧ flipDigit hi ≠ hi := by
  obtain ⟨hhi, hlo⟩ := hexDigit_of_hexDecodeByte h
  obtain ⟨x, hx⟩ := Option.isSome_iff_exists.mp hhi
  obtain ⟨y, hy⟩ := Option.isSome_iff_exists.mp hlo
  obtain ⟨hflip, hne⟩ := hexDigit_flipDigit hi hhi
  have hbits : ∀ x y : Fin 16, ((UInt8.ofNat x ^^^ 8) <<< 4 ||| UInt8.ofNat y) =
      (UInt8.ofNat x <<< 4 ||| UInt8.ofNat y) + 128 := by decide +kernel
  have hxy := hbits ⟨x.toNat, hexDigit_lt hi x hx⟩ ⟨y.toNat, hexDigit_lt lo y hy⟩
  rw [UInt8.ofNat_toNat, UInt8.ofNat_toNat] at hxy
  refine ⟨?_, hne⟩
  rw [hexDecodeByte, hx, hy] at h
  rw [hexDecodeByte, hflip, hx, hy, ← Option.some.inj h]
  exact congrArg some hxy

/-! ## Texts -/

/-- What `decode` accepts. -/
theorem decode_text {p : Bytes} {d : FramedDataUnit} :
    decode (colon :: p ++ [cr, lf]) = .ok d ↔ 7 ≤ p.length ∧ ∃ unit fc data,
      HexPairs p ((unit :: fc :: data) ++ [lrc (unit :: fc :: data)]) ∧
        d = ⟨⟨none, unit, fc, data⟩, colon :: p ++ [cr, lf]⟩ := by
  rw [decode_delimited]
  by_cases hshort : p.length < 7
  · rw [if_pos hshort]
    exact iff_of_false nofun fun h => absurd h.1 (Nat.not_le.mpr hshort)
  · rw [if_neg hshort]
    constructor
    · intro h
      cases hp : decodePayload p with
      | error e =>
        rw [hp] at h
        cases h
      | ok decoded =>
        rw [hp] at h
        cases h
        obtain ⟨unit, fc, data, hhex, hadu, -⟩ := decodePayload_eq_ok.mp hp
        exact ⟨Nat.not_lt.mp hshort, unit, fc, data, hhex, by dsimp only; rw [hadu]⟩
    · rintro ⟨-, unit, fc, data, hhex, rfl⟩
      rw [decodePayload_eq_ok.mpr ⟨unit, fc, data, hhex, rfl, rfl⟩]
      rfl

theorem charDistance_delimited {p p' : Bytes} (hlen : p.length = p'.length) :
    charDistance (colon :: p ++ [cr, lf]) (colon :: p' ++ [cr, lf]) = charDistance p p' := by
  rw [charDistance_append (by simpa using hlen), charDistance_self, charDistance_cons, if_pos rfl,
    Nat.add_zero]

/-- Payloads of one length with one wrong character carry the same. -/
theorem eq_of_payloads {p p' : Bytes} {unit fc unit' fc' : UInt8} {data data' : Bytes}
    (h : HexPairs p ((unit :: fc :: data) ++ [lrc (unit :: fc :: data)]))
    (h' : HexPairs p' ((unit' :: fc' :: data') ++ [lrc (unit' :: fc' :: data')]))
    (hlen : p'.length = p.length) (hdistance : charDistance p p' ≤ 1) :
    unit' = unit ∧ fc' = fc ∧ data' = data := by
  have hbytes := h.eq_of_lrc h' hlen.symm hdistance (by rw [lrc_checked, lrc_checked])
  have hbody := (List.append_inj' hbytes rfl).1
  simp only [List.cons.injEq] at hbody
  exact ⟨hbody.1.symm, hbody.2.1.symm, hbody.2.2.symm⟩

/-- A payload that carries another unit, two characters apart. -/
theorem exists_undetected {p : Bytes} {unit fc : UInt8} {data : Bytes}
    (h : HexPairs p ((unit :: fc :: data) ++ [lrc (unit :: fc :: data)])) :
    ∃ p', p'.length = p.length ∧ charDistance p p' = 2 ∧
      HexPairs p' (((unit + 128) :: fc :: data) ++ [lrc ((unit + 128) :: fc :: data)]) := by
  obtain ⟨q, hi', lo', rfl, hq, hlast⟩ := h.last
  obtain _ | @⟨hi, lo, _, q, _, hfirst, hq⟩ := hq
  obtain ⟨hflip, hne⟩ := hexDecodeByte_flipDigit hfirst
  obtain ⟨hflip', hne'⟩ := hexDecodeByte_flipDigit hlast
  refine ⟨flipDigit hi :: lo :: q ++ [flipDigit hi', lo'], by simp, ?_, ?_⟩
  · rw [charDistance_append (by simp), charDistance_cons, charDistance_cons, charDistance_cons,
      charDistance_self, charDistance_self, if_pos rfl, if_neg hne.symm, if_neg hne'.symm]
  · refine (HexPairs.cons hflip hq).append (.cons ?_ .nil)
    rw [hflip', lrc_cons unit, lrc_cons (unit + 128)]
    congr 1
    grind

/-- A published frame has been decoded. -/
theorem decoded_of_mem {κ ρ : Type} [DecidableEq κ] {lenientHex : Bool}
    {inputs : List (LayerInput κ ρ)} {f : Framing κ ρ}
    (h : Emit.framing f ∈ (feedAll (step lenientHex) (fun _ => none) inputs).2) :
    ∃ p, decodePayload p = .ok (f.adu, f.raw) := by
  have hone : ∀ (states : States κ) (input : LayerInput κ ρ), True →
      True ∧ ∀ emitted ∈ (step lenientHex states input).2, ∀ f, emitted = .framing f →
        ∃ p, decodePayload p = .ok (f.adu, f.raw) := by
    intro states input _
    refine ⟨trivial, ?_⟩
    rintro emitted hemitted f rfl
    cases input with
    | data event =>
      obtain ⟨p, -, hp⟩ := framing_mem_publish hemitted
      exact ⟨p, hp⟩
    | connectionClose connection => cases hemitted
    | flush => cases hemitted
  exact feedAll_outputs hone inputs trivial _ h f rfl

/-! ## Errors -/

/-- **What the LRC detects.** Of two texts of one length that differ in one character at most, `decode`
accepts both only if they carry the same data unit; to every text that it accepts there is one that
differs in two characters, is accepted too and is for another unit. In every run of an ASCII layer, what
is published with the length of an encoded data unit, and at most one other character, is this data
unit. -/
theorem lrc_distance {κ ρ : Type} [DecidableEq κ] (lenientHex : Bool)
    (inputs : List (LayerInput κ ρ)) :
    (∀ (text text' : Bytes) (framed framed' : FramedDataUnit), decode text = .ok framed →
      decode text' = .ok framed' → text'.length = text.length → charDistance text text' ≤ 1 →
        framed'.adu = framed.adu) ∧
      (∀ (text : Bytes) (framed : FramedDataUnit), decode text = .ok framed →
        ∃ (text' : Bytes) (framed' : FramedDataUnit), text'.length = text.length ∧
          charDistance text text' = 2 ∧ decode text' = .ok framed' ∧
            framed'.adu.unit ≠ framed.adu.unit) ∧
        ∀ (f : Framing κ ρ) (adu : ApplicationDataUnit),
          Emit.framing f ∈ (feedAll (step lenientHex) (fun _ => none) inputs).2 →
            f.raw.length = (encode adu).length → charDistance (encode adu) f.raw ≤ 1 →
              f.adu = { adu with transaction := none } := by
  refine ⟨?_, ?_, ?_⟩
  · intro text text' framed framed' hdecode hdecode' hlen hdistance
    obtain ⟨p, rfl⟩ := delimited_of_decode hdecode
    obtain ⟨p', rfl⟩ := delimited_of_decode hdecode'
    obtain ⟨-, unit, fc, data, hhex, rfl⟩ := decode_text.mp hdecode
    obtain ⟨-, unit', fc', data', hhex', rfl⟩ := decode_text.mp hdecode'
    have hlen' : p'.length = p.length := by simpa using hlen
    rw [charDistance_delimited hlen'.symm] at hdistance
    obtain ⟨rfl, rfl, rfl⟩ := eq_of_payloads hhex hhex' hlen' hdistance
    rfl
  · intro text framed hdecode
    obtain ⟨p, rfl⟩ := delimited_of_decode hdecode
    obtain ⟨hmin, unit, fc, data, hhex, rfl⟩ := decode_text.mp hdecode
    obtain ⟨p', hlen, hdistance, hhex'⟩ := exists_undetected hhex
    refine ⟨colon :: p' ++ [cr, lf], ⟨⟨none, unit + 128, fc, data⟩, colon :: p' ++ [cr, lf]⟩,
      by simpa using hlen, ?_, decode_text.mpr ⟨hlen ▸ hmin, _, _, _, hhex', rfl⟩, ?_⟩
    · rw [charDistance_delimited hlen.symm, hdistance]
    · show unit + 128 ≠ unit
      grind
  · intro f adu hf hlen hdistance
    obtain ⟨p, hp⟩ := decoded_of_mem hf
    obtain ⟨unit, fc, data, hhex, hadu, hraw⟩ := decodePayload_eq_ok.mp hp
    have hsent := hexText_pairs
      ((adu.unit :: adu.fc :: adu.data) ++ [lrc (adu.unit :: adu.fc :: adu.data)])
    have hencode : encode adu = colon :: hexText ((adu.unit :: adu.fc :: adu.data) ++
        [lrc (adu.unit :: adu.fc :: adu.data)]) ++ [cr, lf] := rfl
    rw [hencode, hraw] at hlen hdistance
    have hlen' : p.length = (hexText ((adu.unit :: adu.fc :: adu.data) ++
        [lrc (adu.unit :: adu.fc :: adu.data)])).length := by simpa using hlen
    rw [charDistance_delimited hlen'.symm] at hdistance
    obtain ⟨rfl, rfl, rfl⟩ := eq_of_payloads hsent hhex hlen' hdistance
    exact hadu

/-- A frame in which one digit is in lower case, on a layer that takes them. -/
theorem lrc_distance_lowercase :
    let sent : ApplicationDataUnit := ⟨none, 0x1a, 6, [0, 1, 0, 3]⟩
    let text := (encode sent).set 2 0x61
    let published : Framing Unit Unit := ⟨sent, text, (), ()⟩
    text ≠ encode sent ∧ decode text = .ok ⟨sent, text⟩ ∧
      (FramedDataUnit.mk sent text).adu = (FramedDataUnit.mk sent (encode sent)).adu ∧
        (∃ (text' : Bytes) (framed' : FramedDataUnit), text'.length = (encode sent).length ∧
          charDistance (encode sent) text' = 2 ∧ decode text' = .ok framed' ∧
            framed'.adu.unit ≠ sent.unit) ∧
          published.adu = { sent with transaction := none } := by
  intro sent text published
  have hdecode : decode text = .ok ⟨sent, text⟩ := by decide +kernel
  have hsent : decode (encode sent) = .ok ⟨sent, encode sent⟩ := by decide +kernel
  have hpublished : Emit.framing published ∈
      (feedAll (step true) (fun _ => none) [.data ⟨text, (), ()⟩]).2 := by decide +kernel
  obtain ⟨hsame, hundetected, hpublishes⟩ :=
    lrc_distance true [LayerInput.data (⟨text, (), ()⟩ : DataEvent Unit Unit)]
  exact ⟨by decide, hdecode, hsame _ _ _ _ hsent hdecode rfl (by decide),
    hundetected _ _ hsent, hpublishes published sent hpublished rfl (by decide)⟩

end RsModbus.Ascii
