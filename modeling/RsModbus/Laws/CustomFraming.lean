import RsModbus.Laws.RtuFraming
import RsModbus.Laws.RtuStream

/-!
# RTU framing with custom function codes

`Rtu.customFraming_exact`: on a Net transport, and whatever codes are registered at the layer, chunks of
frames whose lengths are foretold come out as exactly those frames. The length of a frame is foretold by
the predictor of its code, if the code is registered, and else by the standard one.

A predictor is any function of the bytes at hand. What it owes a frame is `Predicts`: the length of the
frame as soon as the frame is there, whatever is behind it, and before that no length that the layer
would act on. The standard predictor owes it to every well-formed frame.
-/

namespace RsModbus.Rtu

open Library

variable {κ ρ : Type}

/-! ## Frames whose lengths are foretold -/

/-- The predictor of a role. -/
def CustomFunctionCode.predictor (cfc : CustomFunctionCode) (isResponse : Bool) :
    Bytes → CustomFcPredict :=
  if isResponse then cfc.predictResponseLength else cfc.predictRequestLength

/-- What a predictor owes a frame. -/
structure Predicts (predictor : Bytes → CustomFcPredict) (f : Bytes) : Prop where
  whole : ∀ rest, predictor (f ++ rest) = .length f.length
  part : ∀ p, p <+: f → p ≠ f → minFrameLength ≤ p.length →
    predictor p = .needMore ∨ ∃ n, predictor p = .length n ∧ p.length < n ∧ n ≤ maxFrameLength

/-- The length of a frame is foretold by the predictor of its code, or, with no such code registered, by
the standard one. -/
inductive Foretold (table : UInt8 → Option CustomFunctionCode) (isResponse : Bool) (f : Bytes) : Prop
  | custom {cfc : CustomFunctionCode} (hentry : table (f.getD 1 0) = some cfc)
    (h : Predicts (cfc.predictor isResponse) f)
  | standard (hentry : table (f.getD 1 0) = none)
    (h : predictRtuFrameLength f isResponse = .length f.length)

/-- A frame that a layer with these codes can receive. -/
structure Expected (table : UInt8 → Option CustomFunctionCode) (isResponse : Bool) (f : Bytes) :
    Prop where
  min : 4 ≤ f.length
  max : f.length ≤ 256
  crc : f.drop (f.length - 2) = u16ToLe (crc (f.take (f.length - 2)))
  foretold : Foretold table isResponse f

section Extract

variable {table : UInt8 → Option CustomFunctionCode} {isResponse : Bool} {f : Bytes}

/-- With no code registered the frames are the well-formed ones. -/
theorem expected_iff_wellFormed : Expected (fun _ => none) isResponse f ↔ WellFormed isResponse f := by
  constructor
  · rintro ⟨hmin, hmax, hcrc, hcustom | ⟨-, hpredicted⟩⟩
    · cases hcustom
    · exact ⟨hmin, hmax, hcrc, hpredicted⟩
  · rintro ⟨hmin, hmax, hcrc, hpredicted⟩
    exact ⟨hmin, hmax, hcrc, .standard rfl hpredicted⟩

/-- A buffer whose code is not registered is extracted from as with no codes at all. -/
theorem tryExtract_of_none {buffer : Bytes} (h : table (buffer.getD 1 0) = none) :
    tryExtract buffer isResponse table = tryExtract buffer isResponse fun _ => none := by
  simp only [tryExtract, h]

/-- A buffer whose code is registered. -/
theorem tryExtract_of_some {buffer : Bytes} {cfc : CustomFunctionCode} (hlen : 4 ≤ buffer.length)
    (h : table (buffer.getD 1 0) = some cfc) : tryExtract buffer isResponse table =
      match cfc.predictor isResponse buffer with
      | .needMore => .insufficient
      | .length n => checkExpected buffer n := by
  have hlong : ¬ buffer.length < minFrameLength := Nat.not_lt.mpr hlen
  rw [tryExtract, if_neg hlong, h]
  cases isResponse <;> rfl

/-- The function code of a frame is the one of every part that has it. -/
theorem getD_of_prefix {p : Bytes} (hp : p <+: f) (hlen : 4 ≤ p.length) : p.getD 1 0 = f.getD 1 0 := by
  obtain ⟨rest, rfl⟩ := hp
  exact (List.getD_append _ _ _ _ (by omega)).symm

/-- The CRC of a frame in a buffer that starts with it. -/
theorem Expected.crcMatches (h : Expected table isResponse f) (rest : Bytes) :
    crcMatches (f ++ rest) f.length = true := by
  have hmin := h.min
  have hsplit : f.take (f.length - 2) ++ u16ToLe (RsModbus.crc (f.take (f.length - 2))) = f := by
    rw [← h.crc, List.take_append_drop]
  have hmatches := crcMatches_payload (f.take (f.length - 2)) rest
  rwa [hsplit, List.length_take, Nat.min_eq_left (Nat.sub_le ..), Nat.sub_add_cancel (by omega)]
    at hmatches

/-- A buffer that starts with an expected frame yields it. -/
theorem Expected.whole (h : Expected table isResponse f) (rest : Bytes) :
    tryExtract (f ++ rest) isResponse table = .frame 0 f.length := by
  have hmin := h.min
  have hmax := h.max
  have hlen : 4 ≤ (f ++ rest).length := by
    rw [List.length_append]
    omega
  have hcode : (f ++ rest).getD 1 0 = f.getD 1 0 := List.getD_append _ _ _ _ (by omega)
  cases h.foretold with
  | custom hentry hpredicts =>
    rw [tryExtract_of_some hlen (hcode ▸ hentry), hpredicts.whole rest]
    have hrange : minFrameLength ≤ f.length ∧ f.length ≤ maxFrameLength := ⟨hmin, hmax⟩
    have hthere : ¬ (f ++ rest).length < f.length := by
      rw [List.length_append]
      omega
    exact (if_neg (not_not_intro hrange)).trans ((if_neg hthere).trans (if_pos (h.crcMatches rest)))
  | standard hentry hpredicted =>
    rw [tryExtract_of_none (hcode ▸ hentry)]
    exact tryExtract_whole ⟨hmin, hmax, h.crc, hpredicted⟩ rest

/-- A proper beginning of an expected frame is kept. -/
theorem Expected.part (h : Expected table isResponse f) {p : Bytes} (hp : p <+: f) (hne : p ≠ f) :
    tryExtract p isResponse table = .insufficient := by
  by_cases hlen : 4 ≤ p.length
  · have hcode := getD_of_prefix hp hlen
    cases h.foretold with
    | custom hentry hpredicts =>
      rw [tryExtract_of_some hlen (hcode ▸ hentry)]
      obtain hmore | ⟨n, hn, hlt, hmax⟩ := hpredicts.part p hp hne hlen
      · rw [hmore]
      · rw [hn]
        have hrange : minFrameLength ≤ n ∧ n ≤ maxFrameLength :=
          ⟨Nat.le_trans hlen (Nat.le_of_lt hlt), hmax⟩
        exact (if_neg (not_not_intro hrange)).trans (if_pos hlt)
    | standard hentry hpredicted =>
      rw [tryExtract_of_none (hcode ▸ hentry)]
      exact tryExtract_part ⟨h.min, h.max, h.crc, hpredicted⟩ hp hne
  · exact if_pos (Nat.not_le.mp hlen)

end Extract

/-! ## The reader of a connection -/

/-- The frames of a layer, with the codes registered at it. -/
def IsExpected (app : RtuApplicationLayer) (f : Bytes) (u : FramedDataUnit) : Prop :=
  Expected app.customFunctionCodes app.isResponse f ∧ u = ⟨aduOf f, f⟩

section Reader

variable [DecidableEq κ] {app : RtuApplicationLayer} (h : app.intervalMs = 0)

include h in
theorem delimited_expected (k : κ) :
    Delimited (splitter (ρ := ρ) app k) (Emit.framedFor k)
      fun f y => ∃ u, y = some u ∧ IsExpected app f u where
  nil _ := rfl
  pos := by
    rintro f _ ⟨-, -, hf, -⟩ rfl
    exact absurd hf.min (by decide)
  whole := by
    rintro f _ ⟨_, rfl, hf, rfl⟩ response b
    have hne : f ++ b ≠ [] := fun e =>
      absurd hf.min (by rw [(List.append_eq_nil_iff.mp e).1]; decide)
    refine ⟨.framing (framingOf response k f), ?_, ?_⟩
    · simp only [Emit.framedFor, framingOf, Framing.framed, ↓reduceIte]
    · rw [splitter, flush_eq _ _ _ _ _ hne, hf.whole]
      simp only [Nat.zero_add, List.drop_zero, List.drop_left, List.take_left]
      rfl
  part := by
    rintro f _ ⟨_, rfl, hf, rfl⟩ response p hp hne
    have hstrict : app.strict = false := by
      rw [RtuApplicationLayer.strict, h]
      rfl
    cases p with
    | nil => rfl
    | cons x p =>
      have hlt : (x :: p).length < 256 :=
        Nat.lt_of_lt_of_le (Nat.lt_of_le_of_ne hp.length_le fun e => hne (hp.eq_of_length e)) hf.max
      rw [splitter, flush_eq _ _ _ _ _ (List.cons_ne_nil x p), hf.part hp hne]
      simp only [maxFrameLength, ge_iff_le, Nat.not_le.mpr hlt, ↓reduceIte, hstrict, Bool.or_self,
        Bool.false_eq_true]

/-- The reader of a connection of a Net transport, whatever codes are registered: a data event is read
in pieces, and the pool is flushed behind each. -/
def expectedReader : Reader (app.processEntry (κ := κ) (ρ := ρ)) (IsExpected app) where
  split := splitter app
  retained entry := (poolOf entry).asSlice
  inv := NetEntry
  delimited := delimited_expected h
  simulates := by
    intro entry event hentry
    have hunmarked : (entry.getD .new).t15Expired = false := hentry.unmarked
    let ready : RtuBuffer :=
      { poolOf entry with t15Expired := false, timer := none, interCharTimer := none }
    have hready : ready.WF := ⟨hentry.wf.pool, hentry.wf.le, hentry.wf.bound⟩
    obtain ⟨reads, tail, hflat, hwf, hmark, hslice, hemits⟩ :=
      consume_simulates app event.response event.connection (2 * event.data.length + 1) event.data
        hready rfl (show ready.asSlice = (poolOf entry).asSlice ++ [] from (List.append_nil _).symm)
        (by split <;> omega)
    obtain ⟨hpool, -, hleft, hunmark, hnone, hout⟩ := flushPool_simulates app event.response
      event.connection app.strict hwf
    rw [hmark] at hleft hunmark hnone hout
    have hreceive : app.receive entry event = app.consume event.response event.connection
        (2 * event.data.length + 1) ready event.data := by
      simp only [RtuApplicationLayer.receive, hunmarked, Bool.false_and, Bool.false_eq_true, ↓reduceIte]
      rfl
    have hflushed : app.processEntry entry event = _ := if_pos (.inl h)
    rw [hflushed, hreceive]
    refine ⟨⟨hpool, hunmark (flushBytes_unmarked app event.response event.connection app.strict _ _),
      fun hnil => hnone (hleft.symm.trans hnil)⟩, reads ++ [(event.response, tail)], ?_, ?_⟩
    · rw [List.map_append, List.flatten_append]
      exact (congrArg _ (List.append_nil tail)).trans hflat
    · rw [hslice] at hleft hout
      rw [feedAll_append, feedAll_cons, feedAll_nil, List.append_nil]
      exact Prod.ext hleft.symm (congrArg₂ (· ++ ·) hemits.symm hout.symm)
  own entry event f hf := connection_of_mem_processEntry app hf

include h in
/-- On a Net transport the layer's buffers are the readers of its connections, whatever codes are
registered. -/
theorem feedAll_processDataEvent_net (events : List (DataEvent κ ρ)) (s : State κ ρ) :
    (feedAll (processDataEvent app) s events).1.buffers =
        (feedAll (keyed (·.connection) app.processEntry) s.buffers events).1 ∧
      (feedAll (processDataEvent app) s events).2 =
        (feedAll (keyed (·.connection) app.processEntry) s.buffers events).2 := by
  induction events generalizing s with
  | nil => exact ⟨rfl, rfl⟩
  | cons event events ih =>
    have hstep : (processDataEvent app s event).1.buffers = Function.update s.buffers event.connection
        (app.processEntry (s.buffers event.connection) event).1 := by
      have harms : ¬ app.arms (s.buffers event.connection) event = true := by
        rw [arms_iff]
        omega
      simp only [processDataEvent, harms, Bool.false_eq_true, ↓reduceIte, State.setBuffer, buffers_abort]
    obtain ⟨hbuffers, hemits⟩ := ih (processDataEvent app s event).1
    rw [hstep] at hbuffers hemits
    exact ⟨hbuffers, congrArg _ hemits⟩

end Reader

section Framing

variable [DecidableEq κ] (role : Option ApplicationRole) (table : UInt8 → Option CustomFunctionCode)
  (events : List (DataEvent κ ρ)) (frames : κ → List Bytes)
  (hframes : ∀ k, ∀ f ∈ frames k, Expected table (role == some .master) f)
  (hcut : ∀ k, streamOf k events = (frames k).flatten)

include hframes hcut

theorem processDataEvent_delivers :
    let app := { RtuApplicationLayer.new .net (0, 0) role with customFunctionCodes := table }
    let run := feedAll (processDataEvent app) {} events
    (∀ k, framedFor k run.2 = (frames k).map fun f => ⟨aduOf f, f⟩) ∧
      framingErrors run.2 = [] ∧ ∀ k, run.1.buffers k = none := by
  intro app run
  have hnet : app.intervalMs = 0 := rfl
  obtain ⟨hbuffers, hemits⟩ := feedAll_processDataEvent_net hnet events ({} : State κ ρ)
  obtain ⟨hframed, herrors, hleft⟩ := (expectedReader hnet).delivers (fun _ : κ => none)
    (fun _ => netEntry_none) (fun _ => rfl) events
    (fun k => (frames k).map fun f => (f, ⟨aduOf f, f⟩))
    (by
      intro k p hp
      obtain ⟨f, hf, rfl⟩ := List.mem_map.mp hp
      exact ⟨hframes k f hf, rfl⟩)
    (fun k => (hcut k).trans (by rw [List.map_map]; exact congrArg _ (List.map_id _).symm))
  refine ⟨?_, ?_, ?_⟩
  · intro k
    rw [hemits]
    exact (hframed k).trans (by rw [List.map_map]; rfl)
  · rw [hemits]
    exact herrors
  · intro k
    rw [hbuffers]
    exact (hleft k).1.bytes (hleft k).2

end Framing

/-- **RTU framing with custom function codes.** A layer on a Net transport with any custom function codes
registered: frames whose lengths are foretold for its role, cut into data events and interleaved with
other connections in any way, are published as exactly those frames, in order and with the data units
they carry; no framing error is published and no buffer is left. -/
theorem customFraming_exact [DecidableEq κ] (role : Option ApplicationRole)
    (table : UInt8 → Option CustomFunctionCode) (events : List (DataEvent κ ρ))
    (frames : κ → List Bytes)
    (hframes : ∀ k, ∀ f ∈ frames k, Expected table (role == some .master) f)
    (hcut : ∀ k, streamOf k events = (frames k).flatten) :
    let app := { RtuApplicationLayer.new .net (0, 0) role with customFunctionCodes := table }
    let run := feedAll (step app) {} (events.map fun event => .layer (.data event))
    (∀ k, framedFor k run.2 = (frames k).map fun f => ⟨aduOf f, f⟩) ∧
      framingErrors run.2 = [] ∧ ∀ k, run.1.buffers k = none := by
  intro app run
  have hrun : run = feedAll (processDataEvent app) {} events := feedAll_map ..
  rw [hrun]
  exact processDataEvent_delivers role table events frames hframes hcut

/-- The length of a frame with a byte count behind the function code. -/
def countedLength (buffer : Bytes) : CustomFcPredict :=
  if buffer.length < 3 then .needMore else .length ((buffer.getD 2 0).toNat + 5)

/-- A code whose requests and responses are such frames. -/
def countedCode : CustomFunctionCode where
  fc := 0x65
  predictRequestLength := countedLength
  predictResponseLength := countedLength

theorem predicts_countedLength {f : Bytes} (hmin : 4 ≤ f.length) (hmax : f.length ≤ 256)
    (hcount : f.length = (f.getD 2 0).toNat + 5) : Predicts countedLength f := by
  have hlong : ∀ p : Bytes, 4 ≤ p.length →
      countedLength p = .length ((p.getD 2 0).toNat + 5) := fun p hp =>
    if_neg (Nat.not_lt.mpr (Nat.le_trans (by decide) hp))
  constructor
  · intro rest
    have hmore : 4 ≤ (f ++ rest).length := Nat.le_trans hmin (List.length_append ▸ Nat.le_add_right ..)
    rw [hlong _ hmore, List.getD_append _ _ _ _ (Nat.lt_of_lt_of_le (by decide) hmin), ← hcount]
  · intro p hp hne hlen
    have hlt : p.length < f.length := Nat.lt_of_le_of_ne hp.length_le fun e => hne (hp.eq_of_length e)
    have hget : p.getD 2 0 = f.getD 2 0 := by
      obtain ⟨rest, rfl⟩ := hp
      rw [List.getD_append _ _ _ _ (Nat.lt_of_lt_of_le (by decide) hlen)]
    refine .inr ⟨f.length, ?_, hlt, hmax⟩
    rw [hlong p hlen, hget, ← hcount]

/-- A request of the code, with two bytes. -/
def countedFrame : Bytes := [1, 0x65, 2, 7, 9, 100, 250]

theorem expected_countedFrame :
    Expected (Function.update (fun _ => none) 0x65 (some countedCode)) false countedFrame where
  min := by decide
  max := by decide
  crc := by decide +kernel
  foretold := .custom (Function.update_self ..)
    (predicts_countedLength (by decide) (by decide) (by decide))

/-- Two such requests, cut in the middle of the first one. -/
theorem customFraming_exact_two :
    let app := { RtuApplicationLayer.new .net (0, 0) (some .slave) with
      customFunctionCodes := Function.update (fun _ => none) 0x65 (some countedCode) }
    framedFor () (feedAll (step app) {} [.layer (.data ⟨countedFrame.take 4, (), ()⟩),
      .layer (.data ⟨countedFrame.drop 4 ++ countedFrame, (), ()⟩)]).2 =
        [⟨⟨none, 1, 0x65, [2, 7, 9]⟩, countedFrame⟩, ⟨⟨none, 1, 0x65, [2, 7, 9]⟩, countedFrame⟩] := by
  refine (customFraming_exact (some .slave) _ [⟨countedFrame.take 4, (), ()⟩,
    ⟨countedFrame.drop 4 ++ countedFrame, (), ()⟩] (fun _ => [countedFrame, countedFrame]) ?_ ?_).1 ()
  · intro _ f hf
    rw [List.eq_of_mem_replicate (n := 2) hf]
    exact expected_countedFrame
  · intro _
    rfl

/-! ## Codes that nothing foretells -/

/-- `is_standard_fc` and the tables of the predictor are of the same codes. -/
theorem isStandardFc_eq (isResponse : Bool) (fc : UInt8) : isStandardFc fc isResponse =
    ((isResponse && (fc &&& exceptionOffset != 0)) || (fixedLength isResponse fc).isSome ||
      (byteCountOffset isResponse fc).isSome || (isResponse && fc == 0x2b)) := by
  revert fc
  cases isResponse <;> exact forall_byte (by decide +kernel)

theorem predictObjects_ne_unknown (buffer : Bytes) (numObjs offset : Nat) :
    predictObjects buffer numObjs offset ≠ .unknown := by
  induction numObjs generalizing offset with
  | zero => exact PredictResult.noConfusion
  | succ numObjs ih =>
    unfold predictObjects
    split
    · exact PredictResult.noConfusion
    · exact ih _

theorem predictFc43Response_eq_unknown {buffer : Bytes} : predictFc43Response buffer = .unknown ↔
    8 ≤ buffer.length ∧ buffer.getD 2 0 ≠ meiReadDeviceId := by
  unfold predictFc43Response
  split
  next hshort => exact iff_of_false PredictResult.noConfusion fun h => Nat.not_le.mpr hshort h.1
  next hlong =>
    split
    next hmei => exact ⟨fun _ => ⟨Nat.not_lt.mp hlong, hmei⟩, fun _ => rfl⟩
    next hmei => exact iff_of_false (predictObjects_ne_unknown _ _ _) fun h => hmei h.2

/-- **What the predictor does not know**: a code that is not standard, and an FC 43 response that is
not a device identification. -/
theorem predictRtuFrameLength_eq_unknown {buffer : Bytes} {isResponse : Bool} (hlen : 2 ≤ buffer.length) :
    predictRtuFrameLength buffer isResponse = .unknown ↔
      isStandardFc (buffer.getD 1 0) isResponse = false ∨ isResponse = true ∧ buffer.getD 1 0 = 0x2b ∧
        8 ≤ buffer.length ∧ buffer.getD 2 0 ≠ meiReadDeviceId := by
  have hlong : ¬ buffer.length < 2 := Nat.not_lt.mpr hlen
  rw [isStandardFc_eq, predictRtuFrameLength, if_neg hlong]
  generalize hfc : buffer.getD 1 0 = fc
  dsimp only
  split
  next hexception =>
    have hnot : fc ≠ 0x2b := by
      rintro rfl
      exact absurd (Bool.and_eq_true_iff.mp hexception).2 (by decide)
    simp [hexception, hnot]
  next hnormal =>
    cases hfixed : fixedLength isResponse fc with
    | some n =>
      have hnot : ¬ (isResponse = true ∧ fc = 0x2b) := fun h => by
        rw [h.1, h.2] at hfixed
        cases hfixed
      simp [hnot, ← and_assoc]
    | none =>
      cases hcounted : byteCountOffset isResponse fc with
      | some window =>
        have hnot : ¬ (isResponse = true ∧ fc = 0x2b) := fun h => by
          rw [h.1, h.2] at hcounted
          cases hcounted
        have hknown : (if buffer.length ≤ window.1 then PredictResult.needMore
            else .length (window.2 + (buffer.getD window.1 0).toNat)) ≠ .unknown := by
          split <;> exact PredictResult.noConfusion
        exact iff_of_false hknown (by simp [hnot, ← and_assoc])
      | none =>
        dsimp only
        split
        next h43 =>
          obtain ⟨rfl, h43⟩ := Bool.and_eq_true_iff.mp h43
          obtain rfl := beq_iff_eq.mp h43
          rw [predictFc43Response_eq_unknown]
          simp
        next h43 => simp [hnormal, h43]

/-- **What nothing foretells is dropped**: a pool that begins with a code that is neither registered nor
standard is cleared, with one error. -/
theorem flushPool_unforetold (app : RtuApplicationLayer) (response : ρ) (connection : κ) (strict : Bool)
    {b : RtuBuffer} (h : b.WF) (hlen : 4 ≤ b.len)
    (htable : app.customFunctionCodes (b.asSlice.getD 1 0) = none)
    (hstandard : isStandardFc (b.asSlice.getD 1 0) app.isResponse = false) :
    app.flushPool response connection strict (some b) = (none, [.framingError .invalidData]) := by
  have hslice : 4 ≤ b.asSlice.length := h.length_asSlice.symm ▸ hlen
  have hextract : tryExtract b.asSlice app.isResponse app.customFunctionCodes = .invalid := by
    have hlong : ¬ b.asSlice.length < minFrameLength := Nat.not_lt.mpr hslice
    have hunknown := (predictRtuFrameLength_eq_unknown (Nat.le_trans (by decide) hslice)).mpr
      (.inl hstandard)
    rw [tryExtract, if_neg hlong, htable]
    dsimp only
    rw [hunknown]
  have hflush : app.flushLoop response connection strict b.len b =
      (b.clear, [.framingError .invalidData]) := by
    obtain ⟨fuel, hfuel⟩ := Nat.exists_eq_add_of_lt (Nat.lt_of_lt_of_le (by decide : 0 < 4) hlen)
    have hfull : b.isEmpty = false := beq_false_of_ne fun heq => by
      rw [RtuBuffer.len, heq, Nat.sub_self] at hlen
      cases hlen
    rw [hfuel, Nat.zero_add, RtuApplicationLayer.flushLoop, hfull, hextract]
    rfl
  rw [RtuApplicationLayer.flushPool, hflush]
  rfl

end RsModbus.Rtu
