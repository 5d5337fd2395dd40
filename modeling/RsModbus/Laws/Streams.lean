import RsModbus.Laws.Codec

/-!
# A stream of encoded data units, received

`publishes_frames`: the encodings of data units that fit the protocol, one behind the other and cut
into any chunks, are published by the layer of the other side as exactly those data units. For one
data unit this is `publishes_encode`; for none it says that empty chunks publish nothing
(`publishes_nil`).
-/

namespace RsModbus

open Library

/-- The frame a data unit is received as. -/
abbrev received (protocol : ApplicationProtocol) (settings : LayerSettings)
    (adu : ApplicationDataUnit) : FramedDataUnit := ⟨adu, encode protocol settings adu⟩

/-- The emissions of the frames of a list of data units. -/
abbrev framings (protocol : ApplicationProtocol) (settings : LayerSettings)
    (adus : List ApplicationDataUnit) : List (Emit Unit Unit) :=
  adus.map fun adu => .framing ⟨adu, encode protocol settings adu, (), ()⟩

section Received

variable {adus : List ApplicationDataUnit} {chunks : List Bytes} {settings : LayerSettings}
  (settings' : LayerSettings) {role : ApplicationRole}

/-- With one connection and no error, the published frames are the received ones. -/
theorem eq_framings_of_framedFor {protocol : ApplicationProtocol} {emits : List (Emit Unit Unit)}
    (hframed : framedFor () emits = adus.map (received protocol settings))
    (herrors : framingErrors emits = []) : emits = framings protocol settings adus := by
  rw [eq_map_of_framedFor hframed herrors, List.map_map]
  rfl

theorem publishes_frames_tcp (h : ∀ adu ∈ adus, Fits .tcp (role == .master) adu)
    (hcut : chunks.flatten = (adus.map (encode .tcp settings)).flatten) :
    publishes .tcp settings' role chunks = framings .tcp settings adus := by
  obtain ⟨hframed, herrors, -⟩ := Tcp.reader.delivers (fun _ : Unit => none)
    (fun _ h => by cases h) (fun _ => rfl) (eventsOf chunks)
    (fun _ => adus.map fun adu => (encode .tcp settings adu, received .tcp settings adu))
    (by
      intro _ p hp
      obtain ⟨adu, hadu, rfl⟩ := List.mem_map.mp hp
      obtain ⟨tx, htx⟩ := Option.isSome_iff_exists.mp ((h adu hadu).transaction.mpr rfl)
      exact ⟨tx, htx, (h adu hadu).length, rfl, by simp only [encode, Tcp.encode, htx]⟩)
    (fun _ => by rw [streamOf_eventsOf, hcut, List.map_map]; rfl)
  refine eq_framings_of_framedFor ((hframed ()).trans ?_) herrors
  rw [List.map_map]
  rfl

theorem publishes_frames_rtu (h : ∀ adu ∈ adus, Fits .rtu (role == .master) adu)
    (hcut : chunks.flatten = (adus.map (encode .rtu settings)).flatten) :
    publishes .rtu settings' role chunks = framings .rtu settings adus := by
  have hplain := Rtu.plain_new (0, 0) (some role)
  obtain ⟨-, hemits⟩ := Rtu.feedAll_step_net hplain (eventsOf chunks) {}
  obtain ⟨hframed, herrors, -⟩ := (Rtu.reader hplain).delivers (fun _ : Unit => none)
    (fun _ => Rtu.netEntry_none) (fun _ => rfl) (eventsOf chunks)
    (fun _ => adus.map fun adu => (encode .rtu settings adu, received .rtu settings adu))
    (by
      intro _ p hp
      obtain ⟨adu, hadu, rfl⟩ := List.mem_map.mp hp
      have htx := (h adu hadu).transaction_none (by decide)
      exact ⟨Rtu.wellFormed_encode (h adu hadu),
        congrArg (FramedDataUnit.mk · (Rtu.encode adu)) (Rtu.aduOf_encode htx).symm⟩)
    (fun _ => by rw [streamOf_eventsOf, hcut, List.map_map]; rfl)
  rw [feedAll_map] at hemits
  refine hemits.trans (eq_framings_of_framedFor ((hframed ()).trans ?_) herrors)
  rw [List.map_map]
  rfl

/-- The payloads of a stream of frames, completed one after the other. -/
theorem Ascii.feedAll_frames (lenientHex : Bool) : ∀ adus : List ApplicationDataUnit,
    (∀ adu ∈ adus, adu.data.length ≤ 253) →
      feedAll (fsmByte lenientHex) {} (adus.map Ascii.encode).flatten =
        ({}, adus.map fun adu => .completed (payloadOf adu.unit adu.fc adu.data))
  | [], _ => rfl
  | adu :: adus, h => by
    have hlen : (payloadOf adu.unit adu.fc adu.data).length ≤ maxAsciiPayload := by
      have hdata := h adu List.mem_cons_self
      rw [length_payloadOf, maxAsciiPayload]
      omega
    have hframe : feedAll (fsmByte lenientHex) {} (Ascii.encode adu) =
        ({}, [.completed (payloadOf adu.unit adu.fc adu.data)]) :=
      feedAll_frame (fun c hc => isHexChar_of_mem_hexText hc) hlen
    rw [List.map_cons, List.flatten_cons, feedAll_append, hframe,
      feedAll_frames lenientHex adus fun a ha => h a (List.mem_cons_of_mem _ ha)]
    rfl

theorem publishes_frames_ascii (h : ∀ adu ∈ adus, Fits .ascii (role == .master) adu)
    (hcut : chunks.flatten = (adus.map (encode .ascii settings)).flatten) :
    publishes .ascii settings' role chunks = framings .ascii settings adus := by
  have htx : ∀ adu ∈ adus, adu.transaction = none :=
    fun adu hadu => (h adu hadu).transaction_none (by decide)
  have hwhole : feedAll (Ascii.fsmByte settings'.lenientHex) {} chunks.flatten = _ :=
    (congrArg _ hcut).trans (Ascii.feedAll_frames settings'.lenientHex adus
      fun adu hadu => Nat.le_trans (h adu hadu).length (by decide))
  obtain ⟨-, hframed, herrors⟩ := Ascii.feedAll_driveEntry (k := ()) settings'.lenientHex
    (eventsOf chunks) none (fun _ _ => rfl)
  rw [data_eventsOf, Option.getD_none, hwhole] at hframed herrors
  have hrun : publishes .ascii settings' role chunks =
      (feedAll (Ascii.driveEntry settings'.lenientHex) none (eventsOf chunks)).2 :=
    feedAll_keyed_one (k := ()) (fun _ => none) fun _ _ => rfl
  rw [← hrun] at hframed herrors
  have hdecoded : ∀ adu ∈ adus, Ascii.decoded (Ascii.payloadOf adu.unit adu.fc adu.data) =
      some (received .ascii settings adu) := by
    intro adu hadu
    obtain ⟨transaction, unit, fc, data⟩ := adu
    obtain rfl : transaction = none := htx _ hadu
    simp only [Ascii.decoded, Ascii.decodePayload_payloadOf]
    rfl
  have hpayloads : (adus.map fun adu =>
      Ascii.FsmEvent.completed (Ascii.payloadOf adu.unit adu.fc adu.data)).filterMap
        Ascii.FsmEvent.payload = adus.map fun adu => Ascii.payloadOf adu.unit adu.fc adu.data := by
    simp only [List.filterMap_map, Function.comp_def, Ascii.FsmEvent.payload,
      List.filterMap_eq_map']
  apply eq_framings_of_framedFor
  · rw [hframed, hpayloads, List.filterMap_map]
    exact (List.filterMap_congr hdecoded).trans (congrFun List.filterMap_eq_map' adus)
  · apply List.Perm.eq_nil
    refine herrors.trans (List.Perm.of_eq ?_)
    rw [List.filterMap_map, List.filterMap_eq_nil_iff]
    intro adu _
    simp only [Function.comp_apply, Ascii.errorOf, Ascii.decodePayload_payloadOf]

/-- **A stream of data units that fit is received as it was sent.** -/
theorem publishes_frames {protocol : ApplicationProtocol}
    (h : ∀ adu ∈ adus, Fits protocol (role == .master) adu)
    (hcut : chunks.flatten = (adus.map (encode protocol settings)).flatten) :
    publishes protocol settings' role chunks = framings protocol settings adus := by
  cases protocol with
  | tcp => exact publishes_frames_tcp settings' h hcut
  | rtu => exact publishes_frames_rtu settings' h hcut
  | ascii => exact publishes_frames_ascii settings' h hcut

/-- Empty chunks publish nothing. -/
theorem publishes_nil {protocol : ApplicationProtocol} (hcut : chunks.flatten = []) :
    publishes protocol settings' role chunks = [] := by
  have hframes : chunks.flatten = (List.map (encode protocol settings') []).flatten := hcut
  exact publishes_frames settings' (List.forall_mem_nil _) hframes

end Received

end RsModbus
