import RsModbus.Laws.Decoders

/-!
# Decoding what was encoded

* `decode_encode_iff`: each layer's `decode` gives back the data unit that its `encode` was given, but
  for the ASCII layer on a data unit with no data, whose nine characters it refuses as too short.
-/

namespace RsModbus

/-- What is left of a data unit on the wire: only TCP carries the transaction. -/
def carried (protocol : ApplicationProtocol) (adu : ApplicationDataUnit) : ApplicationDataUnit :=
  match protocol with
  | .tcp => adu
  | _ => { adu with transaction := none }

variable {adu : ApplicationDataUnit}

theorem Tcp.decode_frameBytes {tx : UInt16} (htx : adu.transaction = some tx)
    (hdata : adu.data.length ≤ 252) :
    Tcp.decode (Tcp.frameBytes tx adu) = .ok ⟨adu, Tcp.frameBytes tx adu⟩ := by
  have hlen := Tcp.length_frameBytes tx adu
  have hfield : Tcp.lengthField (Tcp.frameBytes tx adu) = adu.data.length + 2 :=
    List.append_nil (Tcp.frameBytes tx adu) ▸ Tcp.lengthField_frameBytes hdata []
  have hid : ¬ ((Tcp.frameBytes tx adu).getD 2 0 ≠ 0 ∨ (Tcp.frameBytes tx adu).getD 3 0 ≠ 0) := by
    rw [Tcp.frameBytes_eq]
    simp only [List.getD_cons_succ, List.getD_cons_zero, ne_eq, not_true_eq_false, or_self,
      not_false_eq_true]
  rw [Tcp.decode, Tcp.decodeInner, if_neg (by omega), if_neg hid, if_neg (by omega),
    Tcp.aduOf_frameBytes htx]
  rfl

theorem Rtu.decode_encode (adu : ApplicationDataUnit) :
    Rtu.decode (Rtu.encode adu) = .ok ⟨{ adu with transaction := none }, Rtu.encode adu⟩ := by
  generalize hpayload : adu.unit :: adu.fc :: adu.data = payload
  have hencode : Rtu.encode adu = payload ++ u16ToLe (crc payload) := by
    rw [← hpayload]
    rfl
  have hlen : (Rtu.encode adu).length = payload.length + 2 := by
    rw [hencode, List.length_append, length_u16ToLe]
  have hmin : 2 ≤ payload.length := by
    rw [← hpayload]
    exact Nat.le_add_left 2 _
  have hcrc : ¬ u16FromLe ((Rtu.encode adu).getD ((Rtu.encode adu).length - 2) 0)
      ((Rtu.encode adu).getD ((Rtu.encode adu).length - 1) 0) ≠
        crc ((Rtu.encode adu).take ((Rtu.encode adu).length - 2)) := by
    have hlo := getD_length_add payload (u16ToLe (crc payload)) 0 0
    have hhi := getD_length_add payload (u16ToLe (crc payload)) 1 0
    rw [Nat.add_zero] at hlo
    rw [hlen, Nat.add_sub_cancel, show payload.length + 2 - 1 = payload.length + 1 from rfl, hencode,
      List.take_left, hlo, hhi]
    exact not_not_intro (u16FromLe_toLe _)
  have hadu : Rtu.aduOf (Rtu.encode adu) = { adu with transaction := none } := by
    let plain : ApplicationDataUnit := { adu with transaction := none }
    have hplain : plain.transaction = none := rfl
    exact Rtu.aduOf_encode hplain
  rw [Rtu.decode, Rtu.decodeInner, if_neg (by omega), if_neg hcrc, hadu]
  rfl

/-- The ASCII layer's `decode` asks for ten characters. -/
theorem Ascii.decode_encode (adu : ApplicationDataUnit) :
    Ascii.decode (Ascii.encode adu) =
      if adu.data = [] then .error .insufficientData
      else .ok ⟨{ adu with transaction := none }, Ascii.encode adu⟩ := by
  let payload := Ascii.payloadOf adu.unit adu.fc adu.data
  have hencode : Ascii.encode adu = Ascii.colon :: payload ++ [Ascii.cr, Ascii.lf] := rfl
  have hlen : payload.length = 2 * (adu.data.length + 3) := Ascii.length_payloadOf _ _ _
  rw [hencode, Ascii.decode_delimited, Ascii.decodePayload_payloadOf]
  by_cases hdata : adu.data = []
  · rw [if_pos hdata, if_pos (by rw [hlen, hdata]; decide)]
  · have hpos := List.length_pos_iff.mpr hdata
    rw [if_neg hdata, if_neg (by omega)]
    rfl

/-- **Decoding undoes encoding**, but for the ASCII layer on a data unit with no data. -/
theorem decode_encode_iff (protocol : ApplicationProtocol) (settings : LayerSettings)
    (adu : ApplicationDataUnit) (htx : adu.transaction.isSome) (hdata : adu.data.length ≤ 252) :
    decode protocol (encode protocol settings adu) =
        .ok ⟨carried protocol adu, encode protocol settings adu⟩ ↔
      ¬ (protocol = .ascii ∧ adu.data = []) := by
  cases protocol with
  | tcp =>
    obtain ⟨tx, htx⟩ := Option.isSome_iff_exists.mp htx
    have hencode : encode .tcp settings adu = Tcp.frameBytes tx adu := by
      simp only [encode, Tcp.encode, htx]
    rw [hencode]
    refine iff_of_true (Tcp.decode_frameBytes htx hdata) ?_
    rintro ⟨hprotocol, -⟩
    cases hprotocol
  | rtu =>
    refine iff_of_true (Rtu.decode_encode adu) ?_
    rintro ⟨hprotocol, -⟩
    cases hprotocol
  | ascii =>
    have hdecode := Ascii.decode_encode adu
    by_cases hempty : adu.data = []
    · rw [if_pos hempty] at hdecode
      refine iff_of_false ?_ (not_not_intro ⟨rfl, hempty⟩)
      intro hok
      cases hdecode.symm.trans hok
    · rw [if_neg hempty] at hdecode
      exact iff_of_true hdecode fun h => hempty h.2

theorem decode_encode_read :
    decode .ascii (encode .ascii {} ⟨some 1, 1, 3, [0, 0, 0, 2]⟩) =
      .ok ⟨⟨none, 1, 3, [0, 0, 0, 2]⟩, encode .ascii {} ⟨some 1, 1, 3, [0, 0, 0, 2]⟩⟩ :=
  (decode_encode_iff .ascii {} ⟨some 1, 1, 3, [0, 0, 0, 2]⟩ rfl (by decide)).mpr fun h => nomatch h.2

/-- A request for FC 17 over ASCII. -/
theorem serverIdRequest_refused :
    encode .ascii {} ⟨some 1, 1, 0x11, []⟩ = [0x3a, 0x30, 0x31, 0x31, 0x31, 0x45, 0x45, 0x0d, 0x0a] ∧
      decode .ascii (encode .ascii {} ⟨some 1, 1, 0x11, []⟩) = .error .insufficientData :=
  ⟨by decide, Ascii.decode_encode ⟨some 1, 1, 0x11, []⟩⟩

end RsModbus
