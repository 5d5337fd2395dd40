import RsModbus.Laws.Codec
import RsModbus.Laws.RtuBurst

/-!
# What a master can receive

`receivable_iff`: a response whose length RTU predicts is received by a master's layer of the protocol
if and only if its data has at most 252 bytes, or 253 on ASCII (`maxData`). Up to there its encoding
is extracted as the one frame it is, however it is cut; no layer extracts a longer frame from
anything.
-/

namespace RsModbus

open Library

variable {adu : ApplicationDataUnit} {protocol : ApplicationProtocol} {settings : LayerSettings}

/-- The most data that a frame of the protocol can carry: a TCP frame has 260 bytes, an RTU frame 256,
and the payload of an ASCII frame 512 digits. -/
def maxData : ApplicationProtocol → Nat
  | .tcp => 252
  | .rtu => 252
  | .ascii => 253

/-- What an RTU layer on a Serial transport publishes as a master for the chunks of one connection,
and in the silence after them. -/
def Rtu.publishesSerial (intervals : Nat × Nat) (charFirst : Bool) (chunks : List Bytes) :
    List (Emit Unit Unit) :=
  let app := RtuApplicationLayer.new .serial intervals (some .master)
  let run := feedAll (Rtu.step app) {} ((eventsOf chunks).map fun event => .layer (.data event))
  run.2 ++ (feedAll (Rtu.step app) run.1 (Rtu.silence () charFirst run.1)).2

/-- Exactly one frame was published, with this unit, function code and data. -/
def Extracted (adu : ApplicationDataUnit) (emits : List (Emit Unit Unit)) : Prop :=
  ∃ frame : Framing Unit Unit, emits = [.framing frame] ∧ frame.adu.unit = adu.unit ∧
    frame.adu.fc = adu.fc ∧ frame.adu.data = adu.data

/-- A master's layer of the protocol extracts the data unit from its encoding, however that is cut. An
RTU layer does on a Net transport, and on a Serial transport of any intervals. -/
structure Receivable (protocol : ApplicationProtocol) (settings : LayerSettings)
    (adu : ApplicationDataUnit) : Prop where
  extracted : ∀ (settings' : LayerSettings) (chunks : List Bytes),
    chunks.flatten = encode protocol settings adu →
      Extracted adu (publishes protocol settings' .master chunks)
  serial : protocol = .rtu → ∀ (intervals : Nat × Nat) (charFirst : Bool) (chunks : List Bytes),
    0 < intervals.1 → chunks.flatten = encode protocol settings adu →
      Extracted adu (Rtu.publishesSerial intervals charFirst chunks)

/-! ## No longer frame is extracted -/

section Bounds

variable {κ ρ : Type}

theorem Tcp.data_of_mem_extractLoop {response : ρ} {connection : κ} {f : Framing κ ρ} :
    ∀ {fuel : Nat} {buffer : Bytes},
      Emit.framing f ∈ (Tcp.extractLoop response connection fuel buffer).2 → f.adu.data.length ≤ 252
  | 0, _, h => by cases h
  | fuel + 1, buffer, h => by
    simp only [Tcp.extractLoop] at h
    cases htry : Tcp.tryExtractFrame buffer with
    | insufficient => simp only [htry, List.not_mem_nil] at h
    | invalid => simp only [htry, List.mem_singleton, reduceCtorEq] at h
    | frame total =>
      simp only [htry, List.mem_cons, Emit.framing.injEq] at h
      obtain ⟨-, hmax, -⟩ := Tcp.tryExtractFrame_frame htry
      rcases h with rfl | h
      · simp only [Tcp.framingOf, Tcp.aduOf, List.length_drop, List.length_take]
        rw [Tcp.maxTcpFrame] at hmax
        omega
      · exact data_of_mem_extractLoop h

theorem Rtu.Genuine.data {f : Framing κ ρ} (h : Rtu.Genuine f) : f.adu.data.length ≤ 252 := by
  have hdecoded := h.decoded
  rw [Rtu.decode_of_crcMatches h.min h.crc] at hdecoded
  have hadu : Rtu.aduOf f.raw = f.adu := congrArg FramedDataUnit.adu (Except.ok.inj hdecoded)
  have hmax := h.max
  rw [← hadu]
  simp only [Rtu.aduOf, List.length_drop, List.length_take]
  omega

theorem Ascii.data_of_decoded {p : Bytes} {u : FramedDataUnit} (hlen : p.length ≤ 512)
    (h : Ascii.decoded p = some u) : u.adu.data.length ≤ 253 := by
  unfold Ascii.decoded at h
  split at h
  next adu raw hpayload =>
    obtain ⟨unit, fc, data, hhex, rfl, -⟩ := Ascii.decodePayload_eq_ok.mp hpayload
    cases h
    have hpairs := hhex.length
    rw [List.length_append, List.length_singleton, List.length_cons, List.length_cons] at hpairs
    show data.length ≤ 253
    omega
  next => cases h

end Bounds

/-- Whatever a layer receives, the frames it publishes are no longer than the protocol allows. -/
theorem data_of_publishes {settings' : LayerSettings} {role : ApplicationRole} {chunks : List Bytes}
    {f : Framing Unit Unit} (h : Emit.framing f ∈ publishes protocol settings' role chunks) :
    f.adu.data.length ≤ maxData protocol := by
  cases protocol with
  | tcp =>
    have hone : ∀ (buffers : Tcp.Buffers Unit) (event : DataEvent Unit Unit), True → True ∧
        ∀ x ∈ (Tcp.processDataEvent buffers event).2, ∀ f, x = Emit.framing f →
          f.adu.data.length ≤ 252 := by
      refine fun buffers event _ => ⟨trivial, ?_⟩
      rintro x hx f rfl
      exact Tcp.data_of_mem_extractLoop hx
    exact feedAll_outputs hone _ trivial _ h f rfl
  | rtu =>
    refine Rtu.Genuine.data (Rtu.genuine_of_mem (.new .net (0, 0) (some role))
      ((eventsOf chunks).map fun event => .layer (.data event)) Rtu.pools_init ?_)
    rw [feedAll_map]
    exact h
  | ascii =>
    obtain ⟨-, hframed, -⟩ := Ascii.feedAll_driveEntry (k := ()) settings'.lenientHex
      (eventsOf chunks) none (fun _ _ => rfl)
    obtain ⟨-, found, -, hfound, hpayloads⟩ :=
      Ascii.completed_positions settings'.lenientHex ((eventsOf chunks).map (·.data)).flatten
    have hrun : publishes .ascii settings' role chunks =
        (feedAll (Ascii.driveEntry settings'.lenientHex) none (eventsOf chunks)).2 :=
      feedAll_keyed_one (k := ()) (fun _ => none) fun _ _ => rfl
    rw [hrun] at h
    have hmem : f.framed ∈ framedFor ()
        (feedAll (Ascii.driveEntry settings'.lenientHex) none (eventsOf chunks)).2 :=
      List.mem_filterMap.mpr ⟨.framing f, h, by simp only [Emit.framedFor, ↓reduceIte]⟩
    rw [hframed, Option.getD_none, hpayloads] at hmem
    obtain ⟨p, hp, hdecoded⟩ := List.mem_filterMap.mp hmem
    obtain ⟨⟨j, q⟩, hq, rfl⟩ := List.mem_map.mp hp
    obtain ⟨-, hlen, -⟩ := (hfound j q).mp hq
    exact Ascii.data_of_decoded hlen hdecoded

/-! ## Every shorter frame is -/

theorem exists_frameBytes (settings : LayerSettings) (adu : ApplicationDataUnit) :
    ∃ tx, encode .tcp settings adu = Tcp.frameBytes tx adu := by
  simp only [encode, Tcp.encode]
  cases adu.transaction with
  | none => exact ⟨_, rfl⟩
  | some tx => exact ⟨tx, rfl⟩

/-- The encoding of a data unit tells how much data it has. -/
theorem length_encode (protocol : ApplicationProtocol) (settings : LayerSettings)
    (adu : ApplicationDataUnit) : (encode protocol settings adu).length =
      match protocol with
      | .tcp => adu.data.length + 8
      | .rtu => adu.data.length + 4
      | .ascii => 2 * (adu.data.length + 3) + 3 := by
  cases protocol with
  | tcp =>
    obtain ⟨tx, htx⟩ := exists_frameBytes settings adu
    rw [htx]
    exact Tcp.length_frameBytes tx adu
  | rtu => exact Rtu.length_encode adu
  | ascii =>
    show (Ascii.colon :: Ascii.payloadOf adu.unit adu.fc adu.data ++ [Ascii.cr, Ascii.lf]).length = _
    rw [List.length_append, List.length_cons, Ascii.length_payloadOf]
    rfl

/-- The encoding tells the function code and the data. -/
theorem parts_of_encode_eq {adu' : ApplicationDataUnit}
    (h : encode protocol settings adu = encode protocol settings adu') :
    adu.fc = adu'.fc ∧ adu.data = adu'.data := by
  cases protocol with
  | tcp =>
    obtain ⟨tx, htx⟩ := exists_frameBytes settings adu
    obtain ⟨tx', htx'⟩ := exists_frameBytes settings adu'
    have hbytes : Tcp.frameBytes tx adu = Tcp.frameBytes tx' adu' := htx.symm.trans (h.trans htx')
    have hfc := congrArg (·.getD 7 0) hbytes
    have hdata := congrArg (List.drop 8) hbytes
    exact ⟨hfc, hdata⟩
  | rtu =>
    have hbytes := (List.append_inj' h (by rw [length_u16ToLe, length_u16ToLe])).1
    have htail := (List.cons.inj hbytes).2
    exact ⟨(List.cons.inj htail).1, (List.cons.inj htail).2⟩
  | ascii =>
    have htail := (List.cons.inj h).2
    have hpayload : Ascii.payloadOf adu.unit adu.fc adu.data =
        Ascii.payloadOf adu'.unit adu'.fc adu'.data := List.append_cancel_right htail
    have hdecoded := congrArg Ascii.decodePayload hpayload
    rw [Ascii.decodePayload_payloadOf, Ascii.decodePayload_payloadOf] at hdecoded
    injection hdecoded with hdecoded
    have hadu := congrArg Prod.fst hdecoded
    injection hadu with _ _ hfc hdata
    exact ⟨hfc, hdata⟩

namespace Rtu

/-- Chunks of one frame flush the pool at its end only. -/
theorem flushPositions_one : ∀ {chunks : List Bytes} {position pending : Nat},
    pending + chunks.flatten.length ≤ maxFrameLength →
      ∀ q ∈ flushPositions position pending (chunks.map (·.length)),
        q = position + (pending + chunks.flatten.length)
  | [], _, _, _, q, hq => by cases hq
  | chunk :: chunks, position, pending, hmax, q, hq => by
    rw [List.flatten_cons, List.length_append] at hmax ⊢
    rw [maxFrameLength] at hmax
    have hfull : (pending + chunk.length - 1) / poolSize = 0 :=
      Nat.div_eq_of_lt (show pending + chunk.length - 1 < 512 by omega)
    have hpool : poolFlushes position (pending + chunk.length) = [] := by
      rw [poolFlushes, hfull]
      rfl
    simp only [List.map_cons, flushPositions, hfull, hpool, Nat.zero_mul, Nat.sub_zero, Nat.add_zero,
      List.nil_append, ge_iff_le] at hq
    split at hq
    next hover =>
      rw [maxFrameLength] at hover
      rcases List.mem_cons.mp hq with rfl | hq
      · omega
      · have hlater := flushPositions_one (by rw [maxFrameLength]; omega) q hq
        omega
    · have hlater := flushPositions_one (by rw [maxFrameLength]; omega) q hq
      omega

/-- A well formed response is published by a Serial layer after the silence. -/
theorem publishesSerial_frame {intervals : Nat × Nat} (hserial : 0 < intervals.1) (charFirst : Bool)
    {chunks : List Bytes} {f : Bytes} (hf : WellFormed true f) (hcut : chunks.flatten = f) :
    publishesSerial intervals charFirst chunks = [.framing ⟨aduOf f, f, (), ()⟩] := by
  let app := RtuApplicationLayer.new .serial intervals (some .master)
  have happ : SerialPlain app := ⟨hserial, rfl⟩
  have hframes : ∀ g ∈ [f], WellFormed app.isResponse g := by
    intro g hg
    rw [List.mem_singleton.mp hg]
    exact hf
  have hstream : [f].flatten = [] ++ ((eventsOf chunks).map (·.data)).flatten := by
    rw [List.flatten_singleton, data_eventsOf, hcut]
    rfl
  have hlengths : (eventsOf chunks).map (·.data.length) = chunks.map (·.length) := List.map_map
  obtain ⟨hrun, -⟩ := events_burst happ hframes () (fun _ _ => rfl) (waiting_init ())
    (List.nil_append [f]).symm hstream
  have hends : ∀ q ∈ flushPositions 0 0 ((eventsOf chunks).map (·.data.length)),
      EndsFrame [f] q := by
    intro q hq
    rw [hlengths] at hq
    have hend := flushPositions_one (by rw [Nat.zero_add, hcut]; exact hf.max) q hq
    refine ⟨[f], [], rfl, ?_⟩
    rw [hend, hcut, List.flatten_singleton, Nat.zero_add, Nat.zero_add]
  obtain ⟨whole, todo, hsplit, hdelivers, hwaiting⟩ := hrun hends
  have hrest := silence_burst happ hframes () (fun g hg => hsplit ▸ List.mem_append_right _ hg)
    hwaiting charFirst
  obtain ⟨hframed, herrors⟩ := hdelivers.append hrest
  rw [← hsplit] at hframed
  exact eq_map_of_framedFor hframed herrors

end Rtu

/-- The data unit that a layer of the protocol carries: only TCP has transactions, and a TCP layer
numbers what has none. -/
theorem exists_carried (protocol : ApplicationProtocol) (settings : LayerSettings)
    (adu : ApplicationDataUnit) : ∃ transaction : Option UInt16,
      (transaction.isSome ↔ protocol = .tcp) ∧
        encode protocol settings adu =
          encode protocol settings { adu with transaction := transaction } := by
  cases protocol with
  | tcp =>
    cases htx : adu.transaction with
    | none =>
      refine ⟨some (settings.transactionId + 1), iff_of_true rfl rfl, ?_⟩
      simp only [encode, Tcp.encode, htx]
      rfl
    | some tx =>
      refine ⟨some tx, iff_of_true rfl rfl, ?_⟩
      simp only [encode, Tcp.encode, htx]
      rfl
  | rtu => exact ⟨none, iff_of_false (fun h => by cases h) (fun h => by cases h), rfl⟩
  | ascii => exact ⟨none, iff_of_false (fun h => by cases h) (fun h => by cases h), rfl⟩

/-- What is received is no longer than a frame can be. -/
theorem Receivable.length_le (h : Receivable protocol settings adu) :
    adu.data.length ≤ maxData protocol := by
  obtain ⟨frame, hemits, -, -, hdata⟩ :=
    h.extracted settings [encode protocol settings adu] (List.flatten_singleton ..)
  rw [← hdata]
  exact data_of_publishes (hemits ▸ List.mem_singleton_self _)

/-- **What a master can receive**: the responses whose data the protocol has room for. -/
theorem receivable_iff
    (hpredicted : predictRtuFrameLength (Rtu.encode adu) true = .length (adu.data.length + 4)) :
    Receivable protocol settings adu ↔ adu.data.length ≤ maxData protocol := by
  refine ⟨Receivable.length_le, ?_⟩
  intro hmax
  obtain ⟨transaction, htx, hencode⟩ := exists_carried protocol settings adu
  have hsend : protocol ≠ .ascii → Sendable true { adu with transaction := transaction } := by
    intro hprotocol
    refine ⟨?_, hpredicted⟩
    cases protocol with
    | tcp => exact hmax
    | rtu => exact hmax
    | ascii => exact absurd rfl hprotocol
  refine ⟨?_, ?_⟩
  · intro settings' chunks hcut
    refine ⟨⟨{ adu with transaction := transaction }, chunks.flatten, (), ()⟩, ?_, rfl, rfl, rfl⟩
    rw [hencode] at hcut
    cases protocol with
    | tcp => exact publishes_tcp settings' ⟨hsend (by decide), htx⟩ hcut
    | rtu => exact publishes_rtu settings' ⟨hsend (by decide), htx⟩ hcut
    | ascii =>
      have hnone : transaction = none :=
        Option.not_isSome_iff_eq_none.mp fun h => by cases htx.mp h
      exact publishes_ascii_of_le settings' hnone hmax hcut
  · rintro rfl intervals charFirst chunks hserial hcut
    have hfits : Fits .rtu true { adu with transaction := transaction } :=
      ⟨hsend (by decide), htx⟩
    have hnone : transaction = none := hfits.transaction_none (by decide)
    have hf := Rtu.wellFormed_encode hfits
    refine ⟨_, Rtu.publishesSerial_frame hserial charFirst hf (hcut.trans hencode), ?_⟩
    rw [Rtu.aduOf_encode hnone]
    exact ⟨rfl, rfl, rfl⟩

end RsModbus
