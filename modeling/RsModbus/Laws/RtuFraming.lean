import Mathlib.Data.List.GetD
import RsModbus.Laws.Framing
import RsModbus.Laws.RtuPool

/-!
# RTU framing on a Net transport

* `Rtu.netFraming_exact`: chunks of well-formed frames, cut and interleaved in any way, come out as
  exactly those frames.

The length predictor reads only bytes it has checked to be there, so a decision it has taken stands
whatever arrives next (`predictRtuFrameLength_append`). Hence a well-formed frame is extracted whole
(`tryExtract_whole`), and a proper beginning of it is kept (`tryExtract_part`).
-/

namespace RsModbus.Rtu

open Library

variable {κ ρ : Type}

/-! ## The predictor on a growing buffer -/

theorem predictObjects_append (xs ys : Bytes) : ∀ (numObjs offset : Nat),
    predictObjects xs numObjs offset ≠ .needMore →
      predictObjects (xs ++ ys) numObjs offset = predictObjects xs numObjs offset
  | 0, _, _ => rfl
  | numObjs + 1, offset, h => by
    simp only [predictObjects] at h ⊢
    split at h
    · exact absurd rfl h
    next hlen =>
      rw [List.getD_append _ _ _ _ (by omega), List.length_append, if_neg (by omega), if_neg hlen]
      exact predictObjects_append xs ys numObjs _ h

theorem predictFc43Response_append (xs ys : Bytes) (h : predictFc43Response xs ≠ .needMore) :
    predictFc43Response (xs ++ ys) = predictFc43Response xs := by
  simp only [predictFc43Response] at h ⊢
  split at h
  · exact absurd rfl h
  next hlen =>
    rw [List.getD_append _ _ _ _ (by omega), List.getD_append _ _ _ _ (by omega), List.length_append,
      if_neg (by omega), if_neg hlen]
    split
    · rfl
    next hmei =>
      rw [if_neg hmei] at h
      exact predictObjects_append xs ys _ _ h

/-- **The predictor's decisions stand**: bytes that arrive later change nothing. -/
theorem predictRtuFrameLength_append (xs ys : Bytes) (isResponse : Bool)
    (h : predictRtuFrameLength xs isResponse ≠ .needMore) :
    predictRtuFrameLength (xs ++ ys) isResponse = predictRtuFrameLength xs isResponse := by
  simp only [predictRtuFrameLength] at h ⊢
  split at h
  · exact absurd rfl h
  next hlen =>
    rw [List.getD_append _ _ _ _ (by omega), if_neg hlen,
      if_neg (show ¬ (xs ++ ys).length < 2 by rw [List.length_append]; omega)]
    split
    · rfl
    next hexc =>
      rw [if_neg hexc] at h
      cases hfixed : fixedLength isResponse (xs.getD 1 0) with
      | some n => rfl
      | none =>
        rw [hfixed] at h
        dsimp only at h ⊢
        cases hcount : byteCountOffset isResponse (xs.getD 1 0) with
        | some p =>
          rw [hcount] at h
          dsimp only at h ⊢
          split at h
          · exact absurd rfl h
          next hoffset =>
            rw [List.getD_append _ _ _ _ (by omega), List.length_append, if_neg (by omega),
              if_neg hoffset]
        | none =>
          rw [hcount] at h
          dsimp only at h ⊢
          split
          next hmei =>
            rw [if_pos hmei] at h
            exact predictFc43Response_append xs ys h
          · rfl

/-! ## Well-formed frames -/

/-- A frame that is well formed for the layer's role. -/
structure WellFormed (isResponse : Bool) (f : Bytes) : Prop where
  min : 4 ≤ f.length
  max : f.length ≤ 256
  crc : f.drop (f.length - 2) = u16ToLe (crc (f.take (f.length - 2)))
  predicted : predictRtuFrameLength f isResponse = .length f.length

variable {isResponse : Bool} {f : Bytes}

/-- A well-formed frame is a payload and the payload's CRC. -/
theorem WellFormed.split (h : WellFormed isResponse f) :
    ∃ payload, f = payload ++ u16ToLe (RsModbus.crc payload) ∧ payload.length = f.length - 2 := by
  refine ⟨f.take (f.length - 2), ?_, ?_⟩
  · rw [← h.crc, List.take_append_drop]
  · rw [List.length_take]
    omega

theorem crcMatches_payload (payload rest : Bytes) :
    crcMatches (payload ++ u16ToLe (crc payload) ++ rest) (payload.length + 2) = true := by
  have hlen : (payload ++ u16ToLe (crc payload) ++ rest).length =
      payload.length + 2 + rest.length := by
    rw [List.length_append, List.length_append, length_u16ToLe]
  have hlo : (payload ++ u16ToLe (crc payload) ++ rest).getD payload.length 0 =
      UInt8.ofNat (crc payload).toNat := by
    simp only [List.getD_eq_getElem?_getD, List.append_assoc, List.getElem?_append_right,
      Nat.le_refl, Nat.sub_self, u16ToLe, List.cons_append, List.getElem?_cons_zero,
      Option.getD_some]
  have hhi : (payload ++ u16ToLe (crc payload) ++ rest).getD (payload.length + 1) 0 =
      UInt8.ofNat ((crc payload).toNat / 256) := by
    simp only [List.getD_eq_getElem?_getD, List.append_assoc, List.getElem?_append_right,
      Nat.le_add_right, Nat.add_sub_cancel_left, u16ToLe, List.cons_append,
      List.getElem?_cons_succ, List.getElem?_cons_zero, Option.getD_some]
  have htake : (payload ++ u16ToLe (crc payload) ++ rest).take payload.length = payload := by
    rw [List.append_assoc, List.take_left]
  rw [crcMatches, hlen, Nat.add_sub_cancel, show payload.length + 2 - 1 = payload.length + 1 from rfl,
    hlo, hhi, htake, u16FromLe_toLe, if_neg, beq_self_eq_true]
  simp only [Bool.or_eq_true, decide_eq_true_eq, gt_iff_lt]
  omega

/-- A buffer that starts with a well-formed frame yields it. -/
theorem tryExtract_whole (h : WellFormed isResponse f) (rest : Bytes) :
    tryExtract (f ++ rest) isResponse (fun _ => none) = .frame 0 f.length := by
  have hpred := predictRtuFrameLength_append f rest isResponse (by rw [h.predicted]; exact nofun)
  rw [h.predicted] at hpred
  have hmin := h.min
  have hmax := h.max
  have hcrc : crcMatches (f ++ rest) f.length = true := by
    obtain ⟨payload, hf, hlen⟩ := h.split
    have := crcMatches_payload payload rest
    rwa [← hf, hlen, Nat.sub_add_cancel (by omega)] at this
  simp only [tryExtract, hpred, checkExpected, List.length_append, minFrameLength, maxFrameLength,
    hcrc]
  rw [if_neg (by omega), if_neg (by omega), if_neg (by omega), if_pos trivial]

/-- A proper beginning of a well-formed frame is kept. -/
theorem tryExtract_part (h : WellFormed isResponse f) {p : Bytes} (hp : p <+: f) (hne : p ≠ f) :
    tryExtract p isResponse (fun _ => none) = .insufficient := by
  have hmin := h.min
  have hmax := h.max
  have hlt : p.length < f.length :=
    Nat.lt_of_le_of_ne hp.length_le fun e => hne (hp.eq_of_length e)
  obtain ⟨r, rfl⟩ := hp
  simp only [tryExtract]
  by_cases h4 : p.length < minFrameLength
  · rw [if_pos h4]
  · rw [if_neg h4]
    cases hpred : predictRtuFrameLength p isResponse with
    | needMore => rfl
    | unknown =>
      have := predictRtuFrameLength_append p r isResponse (by rw [hpred]; exact nofun)
      rw [h.predicted, hpred] at this
      cases this
    | length n =>
      have := predictRtuFrameLength_append p r isResponse (by rw [hpred]; exact nofun)
      rw [h.predicted, hpred] at this
      cases this
      have hrange : minFrameLength ≤ (p ++ r).length ∧ (p ++ r).length ≤ maxFrameLength :=
        ⟨hmin, hmax⟩
      exact (if_neg (Decidable.not_not.mpr hrange)).trans (if_pos hlt)

/-- The data unit read off a well-formed frame encodes to it. -/
theorem encode_aduOf (h : WellFormed isResponse f) : encode (aduOf f) = f := by
  have hmin := h.min
  obtain ⟨payload, hf, hlen⟩ := h.split
  obtain ⟨unit, fc, data, rfl⟩ : ∃ unit fc data, payload = unit :: fc :: data := by
    match payload, hlen with
    | unit :: fc :: data, _ => exact ⟨unit, fc, data, rfl⟩
    | [_], hlen => simp only [List.length_singleton] at hlen; omega
    | [], hlen => simp only [List.length_nil] at hlen; omega
  have htake : f.take (f.length - 2) = unit :: fc :: data := by
    rw [← hlen, hf, List.take_left]
  have hunit : f.getD 0 0 = unit := by rw [hf]; rfl
  have hfc : f.getD 1 0 = fc := by rw [hf]; rfl
  simp only [encode, aduOf, htake, hunit, hfc, List.drop_succ_cons, List.drop_zero]
  exact hf.symm

/-! ## The reader of a connection -/

/-- The layer of a Net transport with no custom function codes. -/
structure Plain (app : RtuApplicationLayer) : Prop where
  net : app.intervalMs = 0
  custom : app.customFunctionCodes = fun _ => none

theorem plain_new (serialIntervals : Nat × Nat) (role : Option ApplicationRole) :
    Plain (.new .net serialIntervals role) := ⟨rfl, rfl⟩

variable {app : RtuApplicationLayer}

theorem Plain.strict (h : Plain app) : app.strict = false := by
  rw [RtuApplicationLayer.strict, h.net]
  rfl

/-- The frames of the layer. -/
def IsFrame (app : RtuApplicationLayer) (f : Bytes) (u : FramedDataUnit) : Prop :=
  WellFormed app.isResponse f ∧ u = ⟨aduOf f, f⟩

variable [DecidableEq κ]

theorem delimited_splitter (h : Plain app) (k : κ) :
    Delimited (splitter (ρ := ρ) app k) (Emit.framedFor k)
      fun f y => ∃ u, y = some u ∧ IsFrame app f u where
  nil _ := rfl
  pos := by
    rintro f _ ⟨-, -, hf, -⟩ rfl
    exact absurd hf.min (by decide)
  whole := by
    rintro f _ ⟨_, rfl, hf, rfl⟩ response b
    have hne : f ++ b ≠ [] := fun e =>
      absurd hf.min (by rw [(List.append_eq_nil_iff.mp e).1]; decide)
    refine ⟨.framing (framingOf response k f), ?_, ?_⟩
    · simp only [Emit.framedFor, framingOf, Framing.framed, ↓reduceIte]
    · rw [splitter, flush_eq _ _ _ _ _ hne, h.custom, tryExtract_whole hf]
      simp only [Nat.zero_add, List.drop_zero, List.drop_left, List.take_left]
      rfl
  part := by
    rintro f _ ⟨_, rfl, hf, rfl⟩ response p hp hne
    cases p with
    | nil => rfl
    | cons x p =>
      have hlt : (x :: p).length < 256 :=
        Nat.lt_of_lt_of_le (Nat.lt_of_le_of_ne hp.length_le fun e => hne (hp.eq_of_length e)) hf.max
      rw [splitter, flush_eq _ _ _ _ _ (List.cons_ne_nil x p), h.custom, tryExtract_part hf hp hne]
      simp only [maxFrameLength, ge_iff_le, Nat.not_le.mpr hlt, ↓reduceIte, h.strict, Bool.or_self,
        Bool.false_eq_true]

/-- The entry of a connection on a Net transport: an unmarked pool with bytes, or no entry. -/
structure NetEntry (entry : Option RtuBuffer) : Prop where
  wf : (poolOf entry).WF
  unmarked : (poolOf entry).t15Expired = false
  bytes : (poolOf entry).asSlice = [] → entry = none

theorem netEntry_none : NetEntry none := ⟨RtuBuffer.wf_new, rfl, fun _ => rfl⟩

/-- The reader of a connection: what it retains are the bytes of its pool. -/
def reader (h : Plain app) : Reader (app.processEntry (κ := κ) (ρ := ρ)) (IsFrame app) where
  split := splitter app
  retained entry := (poolOf entry).asSlice
  inv := NetEntry
  delimited := delimited_splitter h
  simulates := by
    intro entry event hentry
    have hunmarked : (entry.getD .new).t15Expired = false := hentry.unmarked
    obtain ⟨reads, tail, hflat, hwf, hmark, hslice, hemits⟩ :=
      consume_simulates app event.response event.connection (2 * event.data.length + 1) event.data
        (b := { poolOf entry with t15Expired := false, timer := none, interCharTimer := none })
        ⟨hentry.wf.pool, hentry.wf.le, hentry.wf.bound⟩ rfl
        (show (poolOf entry).asSlice = (poolOf entry).asSlice ++ [] from (List.append_nil _).symm)
        (by split <;> omega)
    obtain ⟨hpool, -, hleft, hunmark, hnone, hout⟩ := flushPool_simulates app event.response
      event.connection app.strict hwf
    simp only [RtuApplicationLayer.processEntry, RtuApplicationLayer.receive, h.net, true_or,
      ↓reduceIte, hunmarked, Bool.false_and, Bool.false_eq_true]
    rw [hmark] at hleft hunmark hnone hout
    refine ⟨⟨hpool, hunmark (flushBytes_unmarked app event.response event.connection app.strict _ _),
      fun hnil => hnone (hleft.symm.trans hnil)⟩, reads ++ [(event.response, tail)], ?_, ?_⟩
    · rw [List.map_append, List.flatten_append]
      exact (congrArg _ (List.append_nil tail)).trans hflat
    · rw [feedAll_append]
      refine Prod.ext ?_ ?_
      · refine Eq.trans ?_ hleft.symm
        rw [hslice]
        rfl
      · refine Eq.trans ?_ (congrArg₂ (· ++ ·) hemits hout).symm
        rw [hslice, feedAll_cons, feedAll_nil, List.append_nil]
        rfl
  own entry event f hf := connection_of_mem_processEntry app hf

/-! ## The framing theorem -/

/-- On a Net transport the layer's buffers are the readers of its connections; no timer is armed. -/
theorem feedAll_step_net (h : Plain app) (events : List (DataEvent κ ρ)) (s : State κ ρ) :
    (feedAll (step app) s (events.map fun event => .layer (.data event))).1.buffers =
        (feedAll (keyed (·.connection) app.processEntry) s.buffers events).1 ∧
      (feedAll (step app) s (events.map fun event => .layer (.data event))).2 =
        (feedAll (keyed (·.connection) app.processEntry) s.buffers events).2 := by
  have one : ∀ (s : State κ ρ) (event : DataEvent κ ρ),
      (processDataEvent app s event).1.buffers =
        Function.update s.buffers event.connection
          (app.processEntry (s.buffers event.connection) event).1 := by
    intro s event
    have habort : ∀ (t : State κ ρ) handle, (t.abort handle).buffers = t.buffers := by
      intro t handle
      cases handle <;> rfl
    have harms : ¬ app.arms (s.buffers event.connection) event = true := by
      intro harms
      obtain ⟨hserial, -⟩ := (arms_iff app).mp harms
      exact Nat.ne_of_gt hserial h.net
    simp only [processDataEvent, harms, Bool.false_eq_true, ↓reduceIte, State.setBuffer, habort]
  induction events generalizing s with
  | nil => exact ⟨rfl, rfl⟩
  | cons event events ih =>
    obtain ⟨hbuffers, hemits⟩ := ih (processDataEvent app s event).1
    rw [one] at hbuffers hemits
    exact ⟨hbuffers, congrArg _ hemits⟩

/-- **RTU framing on a Net transport.** Frames that are well formed for the layer's role, cut into
data events and interleaved with other connections in any way, are published as exactly those
frames, in order and with the data units that encode to them; no framing error is published and no
buffer is left. -/
theorem netFraming_exact (role : Option ApplicationRole) (serialIntervals : Nat × Nat)
    (events : List (DataEvent κ ρ)) (frames : κ → List Bytes)
    (hframes : ∀ k, ∀ f ∈ frames k, WellFormed (role == some .master) f)
    (hcut : ∀ k, streamOf k events = (frames k).flatten) :
    let layer := RtuApplicationLayer.new .net serialIntervals role
    let run := feedAll (step layer) {} (events.map fun event => .layer (.data event))
    (∀ k, framedFor k run.2 = (frames k).map fun f => ⟨aduOf f, f⟩) ∧
      (∀ k, ∀ f ∈ frames k, encode (aduOf f) = f) ∧ framingErrors run.2 = [] ∧
      ∀ k, run.1.buffers k = none := by
  intro layer run
  have hplain : Plain layer := plain_new serialIntervals role
  obtain ⟨hbuffers, hemits⟩ := feedAll_step_net hplain events ({} : State κ ρ)
  obtain ⟨hframed, herrors, hleft⟩ := (reader hplain).delivers (fun _ : κ => none)
    (fun _ => netEntry_none) (fun _ => rfl) events
    (fun k => (frames k).map fun f => (f, ⟨aduOf f, f⟩))
    (by
      intro k p hp
      obtain ⟨f, hf, rfl⟩ := List.mem_map.mp hp
      exact ⟨hframes k f hf, rfl⟩)
    (fun k => (hcut k).trans (by rw [List.map_map]; exact congrArg _ (List.map_id _).symm))
  refine ⟨?_, fun k f hf => encode_aduOf (hframes k f hf), ?_, ?_⟩
  · intro k
    rw [hemits]
    exact (hframed k).trans (by rw [List.map_map]; rfl)
  · rw [hemits]
    exact herrors
  · intro k
    rw [hbuffers]
    exact (hleft k).1.bytes (hleft k).2

/-- Two slave connections; an FC 6 request is cut in two, and an FC 16 request arrives in between,
more than one byte at a time. -/
theorem netFraming_exact_two_connections :
    framedFor false (feedAll (step (.new .net (0, 0) (some .slave))) {}
        [.layer (.data ⟨[1, 6, 0], (), false⟩),
          .layer (.data ⟨[1, 16, 0, 1, 0, 1, 2, 0, 5, 103, 130], (), true⟩),
          .layer (.data ⟨[1, 0, 3, 152, 11], (), false⟩)]).2 =
      [⟨⟨none, 1, 6, [0, 1, 0, 3]⟩, [1, 6, 0, 1, 0, 3, 152, 11]⟩] := by
  refine (netFraming_exact (some .slave) (0, 0)
    [⟨[1, 6, 0], (), false⟩, ⟨[1, 16, 0, 1, 0, 1, 2, 0, 5, 103, 130], (), true⟩,
      ⟨[1, 0, 3, 152, 11], (), false⟩]
    (fun k => cond k [[1, 16, 0, 1, 0, 1, 2, 0, 5, 103, 130]] [[1, 6, 0, 1, 0, 3, 152, 11]])
    ?_ ?_).1 false
  · intro k f hf
    cases k <;> rw [List.mem_singleton.mp hf] <;> constructor <;> decide +kernel
  · intro k
    cases k <;> decide

end RsModbus.Rtu
