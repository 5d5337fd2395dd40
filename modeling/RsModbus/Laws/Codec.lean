import RsModbus.Exchange
import RsModbus.Laws.AsciiFraming
import RsModbus.Laws.RtuFraming
import RsModbus.Laws.TcpFraming

/-!
# One encoded data unit, received

`publishes_encode`: the encoding of a data unit that fits the protocol, cut into any chunks, is
published by the layer of the other side as exactly that data unit. What has to fit differs: on TCP
the data unit carries a transaction id, on RTU its length must be the predicted one, and all three
bound it (`Fits`).
-/

namespace RsModbus

open Library

/-! ## What fits -/

/-- The data unit is short enough, and RTU predicts its length. -/
structure Sendable (isResponse : Bool) (adu : ApplicationDataUnit) : Prop where
  length : adu.data.length ≤ 252
  predicted :
    predictRtuFrameLength (Rtu.encode adu) isResponse = .length (adu.data.length + 4)

/-- The data unit can be sent as a request or response over the protocol. -/
structure Fits (protocol : ApplicationProtocol) (isResponse : Bool) (adu : ApplicationDataUnit) :
    Prop extends Sendable isResponse adu where
  transaction : adu.transaction.isSome ↔ protocol = .tcp

/-- Only TCP has transaction ids. -/
theorem Fits.transaction_none {protocol : ApplicationProtocol} {isResponse : Bool}
    {adu : ApplicationDataUnit} (h : Fits protocol isResponse adu) (hprotocol : protocol ≠ .tcp) :
    adu.transaction = none := by
  cases hadu : adu.transaction with
  | none => rfl
  | some tx =>
    have hsome : adu.transaction.isSome := by rw [hadu]; rfl
    exact absurd (h.transaction.mp hsome) hprotocol

/-! ## Emissions of one connection -/

/-- The events of a connection's chunks. -/
abbrev eventsOf (chunks : List Bytes) : List (DataEvent Unit Unit) :=
  chunks.map fun chunk => ⟨chunk, (), ()⟩

theorem data_eventsOf (chunks : List Bytes) : (eventsOf chunks).map (·.data) = chunks := by
  rw [List.map_map]
  exact List.map_id _

theorem streamOf_eventsOf (chunks : List Bytes) : streamOf () (eventsOf chunks) = chunks.flatten := by
  have hall : ∀ event ∈ eventsOf chunks, decide (event.connection = ()) = true := fun _ _ => rfl
  rw [streamOf, List.filter_eq_self.mpr hall, data_eventsOf]

/-- With one connection and no error, the framed data units are all there is. -/
theorem eq_map_of_framedFor : ∀ {emits : List (Emit Unit Unit)} {framed : List FramedDataUnit},
    framedFor () emits = framed → framingErrors emits = [] →
      emits = framed.map fun u => .framing ⟨u.adu, u.raw, (), ()⟩
  | [], _, rfl, _ => rfl
  | .framing f :: emits, _, rfl, herrors => by
    have ih : emits = (framedFor () emits).map fun u => .framing ⟨u.adu, u.raw, (), ()⟩ :=
      eq_map_of_framedFor rfl herrors
    exact congrArg (List.cons (.framing f)) ih
  | .framingError _ :: _, _, _, herrors => nomatch herrors

section Received

variable {adu : ApplicationDataUnit} {chunks : List Bytes} {settings : LayerSettings}
  (settings' : LayerSettings) {role : ApplicationRole}

theorem publishes_tcp (h : Fits .tcp (role == .master) adu)
    (hcut : chunks.flatten = encode .tcp settings adu) :
    publishes .tcp settings' role chunks = [.framing ⟨adu, chunks.flatten, (), ()⟩] := by
  obtain ⟨tx, htx⟩ := Option.isSome_iff_exists.mp (h.transaction.mpr rfl)
  have hencode : encode .tcp settings adu = Tcp.frameBytes tx adu := by
    simp only [encode, Tcp.encode, htx]
  obtain ⟨hframed, herrors, -⟩ := Tcp.reader.delivers (fun _ : Unit => none)
    (fun _ h => by cases h) (fun _ => rfl) (eventsOf chunks)
    (fun _ => [(chunks.flatten, ⟨adu, chunks.flatten⟩)])
    (fun _ p hp => by
      rw [List.mem_singleton.mp hp, hcut]
      exact ⟨tx, htx, h.length, rfl, hencode⟩)
    (fun _ => (streamOf_eventsOf chunks).trans (List.append_nil _).symm)
  exact eq_map_of_framedFor (hframed ()) herrors

/-! ## RTU -/

theorem Rtu.length_encode (adu : ApplicationDataUnit) :
    (Rtu.encode adu).length = adu.data.length + 4 := by
  rw [Rtu.encode, List.length_append, length_u16ToLe]
  rfl

theorem Rtu.wellFormed_encode {isResponse : Bool} (h : Fits .rtu isResponse adu) :
    Rtu.WellFormed isResponse (Rtu.encode adu) := by
  have hlen := Rtu.length_encode adu
  have hmax := h.length
  have hpayload : (Rtu.encode adu).length - 2 = (adu.unit :: adu.fc :: adu.data).length := by
    rw [hlen]
    rfl
  refine ⟨by omega, by omega, ?_, by rw [hlen]; exact h.predicted⟩
  rw [hpayload]
  simp only [Rtu.encode, List.drop_left, List.take_left]

theorem Rtu.aduOf_encode (h : adu.transaction = none) : Rtu.aduOf (Rtu.encode adu) = adu := by
  have hpayload : (Rtu.encode adu).length - 2 = (adu.unit :: adu.fc :: adu.data).length := by
    rw [Rtu.length_encode]
    rfl
  obtain ⟨transaction, unit, fc, data⟩ := adu
  cases h
  rw [Rtu.aduOf, hpayload]
  simp only [Rtu.encode, List.take_left]
  rfl

theorem publishes_rtu (h : Fits .rtu (role == .master) adu)
    (hcut : chunks.flatten = encode .rtu settings adu) :
    publishes .rtu settings' role chunks = [.framing ⟨adu, chunks.flatten, (), ()⟩] := by
  have htx := h.transaction_none (by decide)
  have hplain := Rtu.plain_new (0, 0) (some role)
  obtain ⟨-, hemits⟩ := Rtu.feedAll_step_net hplain
    (eventsOf chunks) {}
  obtain ⟨hframed, herrors, -⟩ := (Rtu.reader hplain).delivers (fun _ : Unit => none)
    (fun _ => Rtu.netEntry_none) (fun _ => rfl)
    (eventsOf chunks) (fun _ => [(chunks.flatten, ⟨adu, chunks.flatten⟩)])
    (fun _ p hp => by
      rw [List.mem_singleton.mp hp, hcut]
      exact ⟨Rtu.wellFormed_encode h,
        congrArg (FramedDataUnit.mk · (Rtu.encode adu)) (Rtu.aduOf_encode htx).symm⟩)
    (fun _ => (streamOf_eventsOf chunks).trans (List.append_nil _).symm)
  rw [feedAll_map] at hemits
  exact hemits.trans (eq_map_of_framedFor (hframed ()) herrors)

end Received

/-! ## ASCII -/

namespace Ascii

theorem hexDecodeByte_hexEncode (b : UInt8) :
    hexDecodeByte (hexEncode (b >>> 4)) (hexEncode (b &&& 0x0f)) = some b := by
  revert b
  exact forall_byte (by decide +kernel)

theorem isHexChar_hexEncode (b : UInt8) (lenientHex : Bool) :
    isHexChar (hexEncode (b >>> 4)) lenientHex = true ∧
      isHexChar (hexEncode (b &&& 0x0f)) lenientHex = true := by
  revert b lenientHex
  exact forall_byte (by decide +kernel)

theorem hexText_pairs : ∀ bytes : Bytes, HexPairs (hexText bytes) bytes
  | [] => .nil
  | b :: bytes => .cons (hexDecodeByte_hexEncode b) (hexText_pairs bytes)

theorem isHexChar_of_mem_hexText {lenientHex : Bool} {c : UInt8} {bytes : Bytes}
    (h : c ∈ hexText bytes) : isHexChar c lenientHex = true := by
  obtain ⟨b, -, hc⟩ := List.mem_flatMap.mp h
  obtain ⟨hhi, hlo⟩ := isHexChar_hexEncode b lenientHex
  rcases List.mem_cons.mp hc with rfl | hc
  · exact hhi
  · rwa [List.mem_singleton.mp hc]

/-- Digits extend the payload that is being read. -/
theorem feedAll_digits {lenientHex : Bool} : ∀ {p frame : Bytes},
    (∀ c ∈ p, isHexChar c lenientHex = true) → frame.length + p.length ≤ maxAsciiPayload →
      feedAll (fsmByte lenientHex) ⟨.reception, frame⟩ p = (⟨.reception, frame ++ p⟩, [])
  | [], frame, _, _ => by rw [List.append_nil, feedAll_nil]
  | c :: p, frame, hhex, hlen => by
    rw [List.length_cons] at hlen
    have hc := hhex c List.mem_cons_self
    have hcolon : c ≠ colon := by
      rintro rfl
      rw [isHexChar_colon] at hc
      cases hc
    have hcr : c ≠ cr := by
      rintro rfl
      rw [isHexChar_cr] at hc
      cases hc
    have hroom : ¬ frame.length ≥ maxAsciiPayload := by omega
    have hstep : fsmByte lenientHex ⟨.reception, frame⟩ c = (⟨.reception, frame ++ [c]⟩, []) := by
      simp only [fsmByte, if_neg hcolon, if_neg hcr, if_neg hroom, hc, Bool.not_true,
        Bool.false_eq_true, ↓reduceIte]
    rw [feedAll_cons, hstep, feedAll_digits (fun d hd => hhex d (List.mem_cons_of_mem _ hd))
      (by rw [List.length_append, List.length_singleton]; omega), List.append_assoc]
    rfl

/-- A frame alone completes its payload and nothing else. -/
theorem feedAll_frame {lenientHex : Bool} {p : Bytes} (hhex : ∀ c ∈ p, isHexChar c lenientHex = true)
    (hlen : p.length ≤ maxAsciiPayload) :
    feedAll (fsmByte lenientHex) {} (colon :: p ++ [cr, lf]) = ({}, [.completed p]) := by
  have hopen : fsmByte lenientHex {} colon = (⟨.reception, []⟩, []) := rfl
  rw [List.cons_append, feedAll_cons, hopen, feedAll_append, feedAll_digits hhex (by simpa using hlen)]
  rfl

/-- The payload of an encoded data unit. -/
def payloadOf (unit fc : UInt8) (data : Bytes) : Bytes :=
  hexText ((unit :: fc :: data) ++ [lrc (unit :: fc :: data)])

theorem length_payloadOf (unit fc : UInt8) (data : Bytes) :
    (payloadOf unit fc data).length = 2 * (data.length + 3) := by
  rw [payloadOf, (hexText_pairs _).length, List.length_append, List.length_singleton]
  rfl

theorem decodePayload_payloadOf (unit fc : UInt8) (data : Bytes) :
    decodePayload (payloadOf unit fc data) =
      .ok (⟨none, unit, fc, data⟩, colon :: payloadOf unit fc data ++ [cr, lf]) :=
  decodePayload_eq_ok.mpr ⟨unit, fc, data, hexText_pairs _, rfl, rfl⟩

end Ascii

section Received

variable {adu : ApplicationDataUnit} {chunks : List Bytes} {settings : LayerSettings}
  (settings' : LayerSettings) {role : ApplicationRole}

/-- The data of 253 bytes fills the longest payload. -/
theorem publishes_ascii_of_le (htx : adu.transaction = none) (hmax : adu.data.length ≤ 253)
    (hcut : chunks.flatten = encode .ascii settings adu) :
    publishes .ascii settings' role chunks = [.framing ⟨adu, chunks.flatten, (), ()⟩] := by
  obtain ⟨transaction, unit, fc, data⟩ := adu
  cases htx
  let p := Ascii.payloadOf unit fc data
  have hlen : p.length ≤ Ascii.maxAsciiPayload := by
    have hdata : data.length ≤ 253 := hmax
    rw [Ascii.length_payloadOf, Ascii.maxAsciiPayload]
    omega
  have hdecoded := Ascii.decodePayload_payloadOf unit fc data
  have hstream : ((eventsOf chunks).map (·.data)).flatten = Ascii.colon :: p ++ [Ascii.cr, Ascii.lf] := by
    rw [data_eventsOf]
    exact hcut
  have hframe : feedAll (Ascii.fsmByte settings'.lenientHex) {}
      (Ascii.colon :: p ++ [Ascii.cr, Ascii.lf]) = ({}, [.completed p]) :=
    Ascii.feedAll_frame (fun c hc => Ascii.isHexChar_of_mem_hexText hc) hlen
  obtain ⟨-, hframed, herrors⟩ := Ascii.feedAll_driveEntry (k := ()) settings'.lenientHex
    (eventsOf chunks) none (fun _ _ => rfl)
  rw [hstream, Option.getD_none, hframe] at hframed herrors
  have hrun : publishes .ascii settings' role chunks =
      (feedAll (Ascii.driveEntry settings'.lenientHex) none (eventsOf chunks)).2 :=
    feedAll_keyed_one (k := ()) (fun _ => none) fun _ _ => rfl
  have hframed' : framedFor () (publishes .ascii settings' role chunks) =
      [⟨⟨none, unit, fc, data⟩, chunks.flatten⟩] := by
    rw [hrun, hframed, hcut]
    simp only [List.filterMap_cons, Ascii.FsmEvent.payload, Ascii.decoded, p, hdecoded,
      List.filterMap_nil]
    rfl
  have herrors' : framingErrors (publishes .ascii settings' role chunks) = [] := by
    rw [hrun]
    apply List.Perm.eq_nil
    simpa only [List.filterMap_cons, Ascii.errorOf, p, hdecoded, List.filterMap_nil] using herrors
  exact eq_map_of_framedFor hframed' herrors'

theorem publishes_ascii (h : Fits .ascii (role == .master) adu)
    (hcut : chunks.flatten = encode .ascii settings adu) :
    publishes .ascii settings' role chunks = [.framing ⟨adu, chunks.flatten, (), ()⟩] :=
  publishes_ascii_of_le settings' (h.transaction_none (by decide))
    (Nat.le_trans h.length (by decide)) hcut

/-- **A data unit that fits is received as it was sent.** -/
theorem publishes_encode (role : ApplicationRole) {protocol : ApplicationProtocol}
    (h : Fits protocol (role == .master) adu)
    (hcut : chunks.flatten = encode protocol settings adu) :
    publishes protocol settings' role chunks = [.framing ⟨adu, chunks.flatten, (), ()⟩] := by
  cases protocol with
  | tcp => exact publishes_tcp settings' h hcut
  | rtu => exact publishes_rtu settings' h hcut
  | ascii => exact publishes_ascii settings' h hcut

end Received

end RsModbus
