import RsModbus.Laws.Codec
import RsModbus.Laws.Packing

/-!
# One-shot and streaming decoders

* `decoders_agree_iff`: on which bytes the `decode` of the TCP and of the ASCII layer gives what
  the layer's data task publishes when the bytes arrive as one chunk on a fresh connection.

Both sides are compared with the grammar of the layer (`Tcp.IsMessage`, `Ascii.IsText`): each accepts
a part of it only, and the parts differ. TCP `decode` has no longest frame; ASCII `decode` wants ten
characters, has no longest payload, and takes lower-case digits in strict mode.
-/

namespace RsModbus

open Library

variable {κ ρ : Type}

/-- `decode` succeeds exactly when the chunk is published as one frame and nothing else, and then
both give the same data unit. -/
def DecodersAgree (b : Bytes) (decoded : Except ModbusError FramedDataUnit)
    (emits : List (Emit κ ρ)) : Prop :=
  ((∃ d, decoded = .ok d) ↔ ∃ f, emits = [.framing f] ∧ f.raw = b) ∧
    ∀ d f, decoded = .ok d → emits = [.framing f] → f.raw = b → f.adu = d.adu

/-- Where both sides read the data unit off the same grammar, they agree where they accept the same
part of it. -/
theorem decodersAgree_iff {b : Bytes} {decoded : Except ModbusError FramedDataUnit}
    {emits : List (Emit κ ρ)} {D S : Prop} {adu : ApplicationDataUnit}
    (hdecoded : ∀ d, decoded = .ok d ↔ D ∧ d = ⟨adu, b⟩)
    (hframe : ∀ f, (emits = [.framing f] ∧ f.raw = b) → S ∧ f.adu = adu)
    (hemits : S → ∃ f, emits = [.framing f] ∧ f.raw = b) :
    DecodersAgree b decoded emits ↔ (D ↔ S) := by
  have hD : (∃ d, decoded = .ok d) ↔ D :=
    ⟨fun ⟨d, hd⟩ => ((hdecoded d).mp hd).1, fun h => ⟨_, (hdecoded _).mpr ⟨h, rfl⟩⟩⟩
  have hS : (∃ f, emits = [.framing f] ∧ f.raw = b) ↔ S :=
    ⟨fun ⟨f, hf⟩ => (hframe f hf).1, hemits⟩
  have hadu : ∀ d f, decoded = .ok d → emits = [.framing f] → f.raw = b → f.adu = d.adu := by
    intro d f hd hf hraw
    rw [((hdecoded d).mp hd).2]
    exact (hframe f ⟨hf, hraw⟩).2
  rw [DecodersAgree, hD, hS]
  exact and_iff_left hadu

/-! ## TCP -/

namespace Tcp

/-- An MBAP header with protocol id 0, and as many bytes as its length field counts. -/
structure IsMessage (b : Bytes) : Prop where
  header : 8 ≤ b.length
  protocol : b.getD 2 0 = 0 ∧ b.getD 3 0 = 0
  counted : lengthField b + 6 = b.length

theorem decode_eq_ok {b : Bytes} {d : FramedDataUnit} :
    decode b = .ok d ↔ IsMessage b ∧ d = ⟨aduOf b, b⟩ := by
  rw [decode, decodeInner]
  split
  next hshort => exact ⟨nofun, fun h => absurd h.1.header (Nat.not_le.mpr hshort)⟩
  next hheader =>
    split
    next hid => exact ⟨nofun, fun h => (hid.elim (· h.1.protocol.1) (· h.1.protocol.2)).elim⟩
    next hid =>
      split
      next hcount => exact ⟨nofun, fun h => absurd h.1.counted hcount⟩
      next hcount =>
        have hmessage : IsMessage b :=
          ⟨Nat.not_lt.mp hheader, by simpa only [ne_eq, not_or, not_not] using hid,
            Decidable.not_not.mp hcount⟩
        constructor
        · intro h
          cases h
          exact ⟨hmessage, rfl⟩
        · rintro ⟨-, rfl⟩
          rfl

/-- A whole buffer is a frame when it is a message that the longest frame can hold. -/
theorem tryExtractFrame_eq_whole {b : Bytes} :
    tryExtractFrame b = .frame b.length ↔ IsMessage b ∧ b.length ≤ maxTcpFrame := by
  rw [tryExtractFrame]
  constructor
  · intro h
    split at h
    · cases h
    next hheader =>
      split at h
      · cases h
      next hid =>
        split at h
        · cases h
        next hfits =>
          split at h
          · cases h
          · have hlen := ExtractResult.frame.inj h
            refine ⟨⟨Nat.not_lt.mp hheader, by simpa only [ne_eq, not_or, not_not] using hid, ?_⟩, ?_⟩
            · omega
            · omega
  · rintro ⟨⟨hheader, hid, hcount⟩, hmax⟩
    rw [if_neg (by omega), if_neg (by simp only [hid, ne_eq, not_true_eq_false, or_self,
      not_false_eq_true]), if_neg (by omega), if_neg (by omega)]
    exact congrArg ExtractResult.frame (by omega)

theorem extract_nil (response : ρ) (connection : κ) : extract response connection [] = ([], []) :=
  rfl

/-- The chunk is published as one frame exactly when it is a message that fits. -/
theorem extract_eq_whole {response : ρ} {connection : κ} {b : Bytes} {f : Framing κ ρ} :
    ((extract response connection b).2 = [.framing f] ∧ f.raw = b) ↔
      (IsMessage b ∧ b.length ≤ maxTcpFrame) ∧ f = framingOf response connection b := by
  rw [extract_eq]
  constructor
  · rintro ⟨hemits, hraw⟩
    cases htry : tryExtractFrame b with
    | insufficient => simp only [htry, reduceCtorEq] at hemits
    | invalid => simp only [htry, List.cons.injEq, reduceCtorEq, false_and] at hemits
    | frame total =>
      simp only [htry, List.cons.injEq, Emit.framing.injEq] at hemits
      obtain ⟨rfl, -⟩ := hemits
      -- the frame is the whole chunk, so it is as long
      have hlen := congrArg List.length hraw
      have hle := (tryExtractFrame_frame htry).2.2
      simp only [framingOf, List.length_take] at hlen
      obtain rfl : total = b.length := by omega
      exact ⟨tryExtractFrame_eq_whole.mp htry, by rw [List.take_length]⟩
  · rintro ⟨hfits, rfl⟩
    rw [tryExtractFrame_eq_whole.mpr hfits]
    simp only [List.drop_length, List.take_length, extract_nil]
    exact ⟨trivial, rfl⟩

end Tcp

/-- The TCP decoders agree on everything but the messages longer than the longest frame. -/
theorem Tcp.decoders_agree (b : Bytes) (response : ρ) (connection : κ) :
    DecodersAgree b (Tcp.decode b) (Tcp.processEntry none ⟨b, response, connection⟩).2 ↔
      (Tcp.IsMessage b → b.length ≤ Tcp.maxTcpFrame) := by
  have hentry : (Tcp.processEntry none ⟨b, response, connection⟩).2 =
      (Tcp.extract response connection b).2 :=
    congrArg Prod.snd (Tcp.processEntry_getD none ⟨b, response, connection⟩)
  rw [hentry, decodersAgree_iff (fun d => Tcp.decode_eq_ok) (fun f hf => ?_)
    (fun hS => ⟨_, Tcp.extract_eq_whole.mpr ⟨hS, rfl⟩⟩)]
  · exact ⟨fun h hb => (h.mp hb).2, fun h => ⟨fun hb => ⟨hb, h hb⟩, And.left⟩⟩
  · obtain ⟨hfits, rfl⟩ := Tcp.extract_eq_whole.mp hf
    exact ⟨hfits, rfl⟩

/-! ## ASCII -/

namespace Ascii

/-- A lower-case digit. -/
def isLowerDigit (c : UInt8) : Bool := 0x61 ≤ c && c ≤ 0x66

/-- A frame of the layer with digits of either case and of any length: a colon, the digits of unit,
function code, data and LRC, and CR LF. -/
def IsText (b : Bytes) : Prop :=
  ∃ p unit fc data, b = colon :: p ++ [cr, lf] ∧
    HexPairs p ((unit :: fc :: data) ++ [lrc (unit :: fc :: data)])

section Digits

variable {lenientHex : Bool} {hi lo v : UInt8}

theorem isHexChar_of_hexDigit (lenientHex : Bool) (c : UInt8) :
    (hexDigit c).isSome → isHexChar c lenientHex = (lenientHex || !isLowerDigit c) := by
  revert c
  cases lenientHex <;> exact forall_byte (by decide +kernel)

theorem hexDigit_of_hexDecodeByte (h : hexDecodeByte hi lo = some v) :
    (hexDigit hi).isSome ∧ (hexDigit lo).isSome := by
  unfold hexDecodeByte at h
  cases hhi : hexDigit hi with
  | none => simp only [hhi, Option.bind_eq_bind, Option.bind_none, reduceCtorEq] at h
  | some x =>
    cases hlo : hexDigit lo with
    | none =>
      simp only [hhi, hlo, Option.bind_eq_bind, Option.bind_some, Option.bind_none, reduceCtorEq] at h
    | some y => exact ⟨rfl, rfl⟩

/-- What stands for bytes is digits. -/
theorem HexPairs.digits {p bytes : Bytes} (h : HexPairs p bytes) : ∀ c ∈ p, (hexDigit c).isSome := by
  induction h with
  | nil => exact fun c hc => absurd hc List.not_mem_nil
  | cons hb _ ih =>
    obtain ⟨hhi, hlo⟩ := hexDigit_of_hexDecodeByte hb
    intro c hc
    rcases List.mem_cons.mp hc with rfl | hc
    · exact hhi
    rcases List.mem_cons.mp hc with rfl | hc
    · exact hlo
    · exact ih c hc

end Digits

/-- A text between colon and CR LF is decoded from its payload, if it has ten characters. -/
theorem decode_delimited (p : Bytes) :
    decode (colon :: p ++ [cr, lf]) =
      if p.length < 7 then .error .insufficientData
      else (decodePayload p).map fun decoded => ⟨decoded.1, colon :: p ++ [cr, lf]⟩ := by
  have hlen : (colon :: p ++ [cr, lf]).length = (colon :: p).length + 2 := by
    rw [List.length_append]
    rfl
  have hcr := getD_length_add (colon :: p) [cr, lf] 0 0
  have hlf := getD_length_add (colon :: p) [cr, lf] 1 0
  rw [Nat.add_zero] at hcr
  have hframe : ¬ ((colon :: p ++ [cr, lf]).getD 0 0 ≠ colon ∨
      (colon :: p ++ [cr, lf]).getD ((colon :: p ++ [cr, lf]).length - 2) 0 ≠ cr ∨
      (colon :: p ++ [cr, lf]).getD ((colon :: p ++ [cr, lf]).length - 1) 0 ≠ lf) := by
    rw [hlen, Nat.add_sub_cancel, hcr]
    rintro (h | h | h)
    · exact h rfl
    · exact h rfl
    · exact h hlf
  have hpayload : ((colon :: p ++ [cr, lf]).take ((colon :: p ++ [cr, lf]).length - 2)).drop 1 =
      p := by
    rw [hlen, Nat.add_sub_cancel, List.take_left]
    rfl
  rw [decode, hpayload, if_neg hframe, hlen, List.length_cons]
  by_cases hshort : p.length < 7
  · rw [if_pos hshort, if_pos (by omega)]
  · rw [if_neg hshort, if_neg (by omega)]
    cases decodePayload p <;> rfl

/-- What `decode` accepts lies between a colon and CR LF. -/
theorem delimited_of_decode {b : Bytes} {d : FramedDataUnit} (h : decode b = .ok d) :
    ∃ p, b = colon :: p ++ [cr, lf] := by
  unfold decode at h
  split at h
  · cases h
  next hlen =>
    split at h
    · cases h
    next hframe =>
      simp only [not_or, ne_eq, not_not] at hframe
      obtain ⟨hcolon, hcr, hlf⟩ := hframe
      obtain ⟨xs, y, rfl⟩ := (List.eq_nil_or_concat' b).resolve_left
        (by rintro rfl; exact hlen (by decide))
      rw [List.length_append, List.length_singleton] at hlen
      obtain ⟨ys, x, rfl⟩ := (List.eq_nil_or_concat' xs).resolve_left
        (by rintro rfl; exact hlen (by decide))
      rw [List.length_append, List.length_singleton] at hlen
      cases ys with
      | nil => exact absurd (show 0 + 1 + 1 < 10 by decide) hlen
      | cons c p =>
        have hx := getD_length_add (c :: p) [x, y] 0 0
        have hy := getD_length_add (c :: p) [x, y] 1 0
        rw [List.append_assoc] at hcolon hcr hlf ⊢
        rw [List.length_append] at hcr hlf
        rw [show (c :: p).length + ([x] ++ [y]).length - 2 = (c :: p).length + 0 from rfl] at hcr
        rw [show (c :: p).length + ([x] ++ [y]).length - 1 = (c :: p).length + 1 from rfl] at hlf
        obtain rfl : c = colon := hcolon
        obtain rfl : x = cr := hx.symm.trans hcr
        obtain rfl : y = lf := hy.symm.trans hlf
        exact ⟨p, rfl⟩

/-- A frame published for a chunk is a payload that the machine completed. -/
theorem framing_mem_publish {response : ρ} {connection : κ} {events : List FsmEvent}
    {f : Framing κ ρ} (h : .framing f ∈ publish response connection events) :
    ∃ p ∈ events.filterMap FsmEvent.payload, decodePayload p = .ok (f.adu, f.raw) := by
  rcases List.mem_append.mp h with h | h
  · rcases List.mem_append.mp h with h | h <;> cases (List.mem_replicate.mp h).2
  · obtain ⟨p, hp, hpublish⟩ := List.mem_map.mp h
    refine ⟨p, hp, ?_⟩
    unfold publishPayload at hpublish
    cases hd : decodePayload p with
    | error e => simp only [hd, reduceCtorEq] at hpublish
    | ok decoded =>
      simp only [hd, Emit.framing.injEq] at hpublish
      rw [← hpublish]

/-- The payload of a chunk that is published whole is one that the machine takes. -/
theorem payload_of_whole {lenientHex : Bool} {b : Bytes} {response : ρ} {connection : κ}
    {f : Framing κ ρ}
    (h : (driveEntry lenientHex none ⟨b, response, connection⟩).2 = [.framing f] ∧ f.raw = b) :
    ∃ p, b = colon :: p ++ [cr, lf] ∧ p.length ≤ maxAsciiPayload ∧
      (∀ c ∈ p, isHexChar c lenientHex = true) ∧ decodePayload p = .ok (f.adu, b) := by
  obtain ⟨hemits, hraw⟩ := h
  obtain ⟨p, hp, hdecoded⟩ := framing_mem_publish (hemits ▸ List.mem_singleton_self _)
  obtain ⟨-, found, -, hfound, hpayloads⟩ := completed_positions lenientHex b
  rw [Option.getD_none, hpayloads] at hp
  obtain ⟨⟨j, q⟩, hq, rfl⟩ := List.mem_map.mp hp
  obtain ⟨-, hlen, hhex, -⟩ := (hfound j q).mp hq
  obtain ⟨-, -, -, -, -, hshape⟩ := decodePayload_eq_ok.mp hdecoded
  exact ⟨q, hraw.symm.trans hshape, hlen, hhex, hraw ▸ hdecoded⟩

end Ascii

namespace Ascii

section Texts

variable {lenientHex : Bool} {p : Bytes} {unit fc : UInt8} {data : Bytes}

theorem length_delimited (p : Bytes) : (colon :: p ++ [cr, lf]).length = p.length + 3 := by
  rw [List.length_append]
  rfl

/-- The machine takes the digits of a text unless it is strict and one is lower-case. -/
theorem digits_taken_iff {bytes : Bytes} (hhex : HexPairs p bytes) :
    (∀ c ∈ p, isHexChar c lenientHex = true) ↔
      lenientHex = true ∨ ∀ c ∈ colon :: p ++ [cr, lf], isLowerDigit c = false := by
  have hdigit : ∀ c ∈ p, isHexChar c lenientHex = (lenientHex || !isLowerDigit c) :=
    fun c hc => isHexChar_of_hexDigit lenientHex c (hhex.digits c hc)
  constructor
  · intro htaken
    cases lenientHex with
    | true => exact .inl rfl
    | false =>
      refine .inr fun c hc => ?_
      rw [List.cons_append, List.mem_cons, List.mem_append] at hc
      rcases hc with rfl | hc | hc
      · rfl
      · have htrue := (hdigit c hc).symm.trans (htaken c hc)
        simpa only [Bool.false_or, Bool.not_eq_true'] using htrue
      · rcases List.mem_pair.mp hc with rfl | rfl <;> rfl
  · intro htaken c hc
    rw [hdigit c hc]
    rcases htaken with rfl | hlower
    · rfl
    · rw [hlower c (List.mem_cons_of_mem _ (List.mem_append_left _ hc)), Bool.not_false, Bool.or_true]

/-- The chunk of a text that the machine takes is published as that text alone. -/
theorem driveEntry_text {raw : Bytes} {adu : ApplicationDataUnit} (response : ρ) (connection : κ)
    (hdecoded : decodePayload p = .ok (adu, raw)) (hlen : p.length ≤ maxAsciiPayload)
    (hhex : ∀ c ∈ p, isHexChar c lenientHex = true) :
    (driveEntry lenientHex none ⟨colon :: p ++ [cr, lf], response, connection⟩).2 =
      [.framing ⟨adu, raw, response, connection⟩] := by
  simp only [driveEntry, Option.getD_none, feedAll_frame hhex hlen]
  simp only [publish, List.count_singleton, reduceCtorEq, beq_iff_eq, ↓reduceIte,
    List.replicate_zero, List.nil_append, List.filterMap_cons, FsmEvent.payload, List.filterMap_nil,
    List.map_cons, publishPayload, hdecoded, List.map_nil]

end Texts

/-- The ASCII decoders agree on a text when `decode` takes its length exactly when the machine takes
its length and its digits. -/
theorem decoders_agree (lenientHex : Bool) (b : Bytes) (response : ρ) (connection : κ) :
    DecodersAgree b (decode b) (driveEntry lenientHex none ⟨b, response, connection⟩).2 ↔
      (IsText b → (10 ≤ b.length ↔
        b.length ≤ 515 ∧ (lenientHex = true ∨ ∀ c ∈ b, isLowerDigit c = false))) := by
  by_cases htext : IsText b
  · obtain ⟨p, unit, fc, data, rfl, hhex⟩ := htext
    have hpayload := decodePayload_eq_ok.mpr ⟨unit, fc, data, hhex, rfl, rfl⟩
    have hdecode : ∀ d, decode (colon :: p ++ [cr, lf]) = .ok d ↔
        10 ≤ (colon :: p ++ [cr, lf]).length ∧ d = ⟨⟨none, unit, fc, data⟩, colon :: p ++ [cr, lf]⟩ := by
      intro d
      rw [decode_delimited, hpayload, length_delimited]
      split
      next hshort => exact ⟨nofun, fun h => absurd h.1 (by omega)⟩
      next hlong =>
        constructor
        · intro h
          cases h
          exact ⟨by omega, rfl⟩
        · rintro ⟨-, rfl⟩
          rfl
    have hmax : (colon :: p ++ [cr, lf]).length ≤ 515 ↔ p.length ≤ maxAsciiPayload := by
      rw [length_delimited, maxAsciiPayload]
      omega
    rw [← digits_taken_iff hhex, hmax]
    rw [decodersAgree_iff hdecode (fun f hf => ?_) (fun hS => ?_)]
    · exact ⟨fun h _ => h, fun h => h ⟨p, unit, fc, data, rfl, hhex⟩⟩
    · obtain ⟨q, hq, hlen, htaken, hdecoded⟩ := payload_of_whole hf
      obtain rfl : p = q := List.append_cancel_right (List.cons.inj hq).2
      have hsame := Except.ok.inj (hpayload.symm.trans hdecoded)
      exact ⟨⟨hlen, htaken⟩, (congrArg Prod.fst hsame).symm⟩
    · exact ⟨_, driveEntry_text response connection hpayload hS.1 hS.2, rfl⟩
  · -- neither side accepts
    have hno : ∀ {p raw : Bytes} {adu : ApplicationDataUnit}, b = colon :: p ++ [cr, lf] →
        decodePayload p ≠ .ok (adu, raw) := by
      rintro p raw adu rfl hdecoded
      obtain ⟨unit, fc, data, hhex, -, -⟩ := decodePayload_eq_ok.mp hdecoded
      exact htext ⟨p, unit, fc, data, rfl, hhex⟩
    refine iff_of_true ⟨iff_of_false ?_ ?_, ?_⟩ fun h => absurd h htext
    · rintro ⟨d, hd⟩
      obtain ⟨p, rfl⟩ := delimited_of_decode hd
      rw [decode_delimited] at hd
      split at hd
      · cases hd
      · cases hdecoded : decodePayload p with
        | error e => simp only [hdecoded, Except.map, reduceCtorEq] at hd
        | ok decoded => exact hno rfl hdecoded
    · rintro ⟨f, hf⟩
      obtain ⟨p, hp, -, -, hdecoded⟩ := payload_of_whole hf
      exact hno hp hdecoded
    · intro d f _ hemits hraw
      obtain ⟨p, hp, -, -, hdecoded⟩ := payload_of_whole ⟨hemits, hraw⟩
      exact absurd hdecoded (hno hp)

end Ascii

/-! ## Both layers -/

/-- **On which bytes the two decoders of a layer agree**, whatever the other connections have
pending. -/
theorem decoders_agree_iff [DecidableEq κ] (b : Bytes) (response : ρ) (connection : κ) :
    (∀ buffers : Tcp.Buffers κ, buffers connection = none →
      (DecodersAgree b (Tcp.decode b) (Tcp.step buffers (.data ⟨b, response, connection⟩)).2 ↔
        (Tcp.IsMessage b → b.length ≤ 260))) ∧
    ∀ (lenientHex : Bool) (states : Ascii.States κ), states connection = none →
      (DecodersAgree b (Ascii.decode b)
          (Ascii.step lenientHex states (.data ⟨b, response, connection⟩)).2 ↔
        (Ascii.IsText b → (10 ≤ b.length ↔
          b.length ≤ 515 ∧ (lenientHex = true ∨ ∀ c ∈ b, Ascii.isLowerDigit c = false)))) := by
  constructor
  · intro buffers hfresh
    have hstep : (Tcp.step buffers (.data ⟨b, response, connection⟩)).2 =
        (Tcp.processEntry none ⟨b, response, connection⟩).2 := by
      simp only [Tcp.step, Tcp.processDataEvent, hfresh]
    rw [hstep]
    exact Tcp.decoders_agree b response connection
  · intro lenientHex states hfresh
    have hstep : (Ascii.step lenientHex states (.data ⟨b, response, connection⟩)).2 =
        (Ascii.driveEntry lenientHex none ⟨b, response, connection⟩).2 := by
      simp only [Ascii.step, Ascii.driveFsm, hfresh]
    rw [hstep]
    exact Ascii.decoders_agree lenientHex b response connection

/-- A read request over TCP. -/
theorem decoders_agree_read :
    DecodersAgree [0, 1, 0, 0, 0, 6, 1, 3, 0, 0, 0, 2] (Tcp.decode [0, 1, 0, 0, 0, 6, 1, 3, 0, 0, 0, 2])
      (Tcp.step (fun _ => none) (.data ⟨[0, 1, 0, 0, 0, 6, 1, 3, 0, 0, 0, 2], (), ()⟩)).2 :=
  ((decoders_agree_iff [0, 1, 0, 0, 0, 6, 1, 3, 0, 0, 0, 2] () ()).1 (fun _ => none) rfl).mpr
    fun _ => by decide

/-- `:010300fc`, a frame with lower-case digits: `decode` accepts what a strict data task reports
as no digits. -/
theorem decoders_disagree_lowercase :
    ¬ DecodersAgree
      [0x3a, 0x30, 0x31, 0x30, 0x33, 0x30, 0x30, 0x66, 0x63, 0x0d, 0x0a]
      (Ascii.decode [0x3a, 0x30, 0x31, 0x30, 0x33, 0x30, 0x30, 0x66, 0x63, 0x0d, 0x0a])
      (Ascii.step false (fun _ => none) (.data
        ⟨[0x3a, 0x30, 0x31, 0x30, 0x33, 0x30, 0x30, 0x66, 0x63, 0x0d, 0x0a], (), ()⟩)).2 := by
  intro h
  obtain ⟨f, hf, -⟩ := h.1.mp ⟨⟨⟨none, 1, 3, [0]⟩,
    [0x3a, 0x30, 0x31, 0x30, 0x33, 0x30, 0x30, 0x66, 0x63, 0x0d, 0x0a]⟩, by decide⟩
  cases hf

end RsModbus
