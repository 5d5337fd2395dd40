import Mathlib.Data.List.GetD
import RsModbus.Laws.Framing
import RsModbus.Application.Tcp

/-!
# Modbus TCP framing

* `Tcp.framing_exact`: chunks of encoded data units, cut and interleaved in any way, come out as
  exactly those data units; and whatever arrives, fewer than 260 bytes are retained.

The splitter is the extraction loop with enough fuel (`extract`). That an encoded data unit is
extracted whole and never touched before it is whole (`tryExtractFrame_whole`,
`tryExtractFrame_part`) is all the framing theorem needs.
-/

namespace RsModbus.Tcp

open Library

variable {κ ρ : Type}

/-! ## The extraction loop -/

/-- The extraction loop with enough fuel. -/
def extract (response : ρ) (connection : κ) (buffer : Bytes) : Bytes × List (Emit κ ρ) :=
  extractLoop response connection buffer.length buffer

theorem tryExtractFrame_frame {buffer : Bytes} {total : Nat}
    (h : tryExtractFrame buffer = .frame total) :
    8 ≤ total ∧ total ≤ maxTcpFrame ∧ total ≤ buffer.length := by
  unfold tryExtractFrame at h
  split at h
  · cases h
  split at h
  · cases h
  split at h
  · cases h
  split at h
  · cases h
  cases h
  omega

theorem tryExtractFrame_insufficient {buffer : Bytes}
    (h : tryExtractFrame buffer = .insufficient) : buffer.length < maxTcpFrame := by
  unfold tryExtractFrame at h
  split at h
  · exact Nat.lt_trans ‹_› (by decide)
  split at h
  · cases h
  split at h
  · cases h
  split at h
  · omega
  · cases h

/-- Fuel beyond the length of the buffer changes nothing. -/
theorem extractLoop_fuel (response : ρ) (connection : κ) :
    ∀ {fuel fuel' : Nat} {buffer : Bytes}, buffer.length ≤ fuel → buffer.length ≤ fuel' →
      extractLoop response connection fuel buffer = extractLoop response connection fuel' buffer
  | 0, 0, _, _, _ => rfl
  | 0, _ + 1, _, h, _ => by
    rw [List.eq_nil_of_length_eq_zero (Nat.le_zero.mp h)]
    rfl
  | _ + 1, 0, _, _, h => by
    rw [List.eq_nil_of_length_eq_zero (Nat.le_zero.mp h)]
    rfl
  | fuel + 1, fuel' + 1, buffer, h, h' => by
    simp only [extractLoop]
    cases htry : tryExtractFrame buffer with
    | insufficient => rfl
    | invalid => rfl
    | frame total =>
      have hlen := tryExtractFrame_frame htry
      have hdrop : (buffer.drop total).length ≤ fuel ∧ (buffer.drop total).length ≤ fuel' := by
        rw [List.length_drop]
        omega
      dsimp only
      rw [extractLoop_fuel response connection hdrop.1 hdrop.2]

/-- One turn of the extraction loop. -/
theorem extract_eq (response : ρ) (connection : κ) (buffer : Bytes) :
    extract response connection buffer =
      match tryExtractFrame buffer with
      | .frame total =>
        ((extract response connection (buffer.drop total)).1,
          .framing (framingOf response connection (buffer.take total)) ::
            (extract response connection (buffer.drop total)).2)
      | .insufficient => (buffer, [])
      | .invalid => ([], [.framingError .invalidData]) := by
  rw [extract, extractLoop_fuel response connection (Nat.le_refl _) (Nat.le_succ _)]
  simp only [extractLoop]
  cases htry : tryExtractFrame buffer with
  | insufficient => rfl
  | invalid => rfl
  | frame total =>
    have hlen := tryExtractFrame_frame htry
    dsimp only
    rw [extract, extractLoop_fuel response connection (by rw [List.length_drop]; omega)
      (Nat.le_refl _)]

/-- What the loop leaves is shorter than the longest frame. -/
theorem length_extractLoop_lt (response : ρ) (connection : κ) :
    ∀ {fuel : Nat} {buffer : Bytes}, buffer.length ≤ fuel →
      (extractLoop response connection fuel buffer).1.length < maxTcpFrame
  | 0, _, h => Nat.lt_of_le_of_lt h (by decide)
  | fuel + 1, buffer, h => by
    simp only [extractLoop]
    cases htry : tryExtractFrame buffer with
    | insufficient => exact tryExtractFrame_insufficient htry
    | invalid => exact Nat.zero_lt_succ _
    | frame total =>
      have hlen := tryExtractFrame_frame htry
      exact length_extractLoop_lt response connection (by rw [List.length_drop]; omega)

/-- The loop publishes for the connection of the event only. -/
theorem connection_of_mem_extractLoop {response : ρ} {connection : κ} {f : Framing κ ρ} :
    ∀ {fuel : Nat} {buffer : Bytes},
      Emit.framing f ∈ (extractLoop response connection fuel buffer).2 → f.connection = connection
  | 0, _, h => nomatch h
  | fuel + 1, buffer, h => by
    simp only [extractLoop] at h
    cases htry : tryExtractFrame buffer with
    | insufficient => simp only [htry, List.not_mem_nil] at h
    | invalid => simp only [htry, List.mem_singleton, reduceCtorEq] at h
    | frame total =>
      simp only [htry, List.mem_cons, Emit.framing.injEq] at h
      rcases h with rfl | h
      · rfl
      · exact connection_of_mem_extractLoop h

/-! ## Encoded data units -/

/-- The frames of the layer: the encodings of data units of at most 252 data bytes, which show as
the data unit and its encoding. -/
def IsFrame (f : Bytes) (u : FramedDataUnit) : Prop :=
  ∃ tx, u.adu.transaction = some tx ∧ u.adu.data.length ≤ 252 ∧ u.raw = f ∧ f = frameBytes tx u.adu

theorem frameBytes_eq (tx : UInt16) (adu : ApplicationDataUnit) :
    frameBytes tx adu =
      UInt8.ofNat (tx.toNat / 256) :: UInt8.ofNat tx.toNat :: 0 :: 0 ::
        UInt8.ofNat ((UInt16.ofNat (adu.data.length + 2)).toNat / 256) ::
          UInt8.ofNat (UInt16.ofNat (adu.data.length + 2)).toNat :: adu.unit :: adu.fc :: adu.data :=
  rfl

theorem length_frameBytes (tx : UInt16) (adu : ApplicationDataUnit) :
    (frameBytes tx adu).length = adu.data.length + 8 := rfl

/-- The length field of an encoded data unit, whatever follows it. -/
theorem lengthField_frameBytes {tx : UInt16} {adu : ApplicationDataUnit}
    (h : adu.data.length ≤ 252) (rest : Bytes) :
    lengthField (frameBytes tx adu ++ rest) = adu.data.length + 2 := by
  simp only [lengthField, frameBytes_eq, List.cons_append, List.getD_cons_succ,
    List.getD_cons_zero, u16FromBe_toBe]
  rw [UInt16.toNat_ofNat']
  omega

/-- A buffer that starts with an encoded data unit yields it. -/
theorem tryExtractFrame_whole {tx : UInt16} {adu : ApplicationDataUnit}
    (h : adu.data.length ≤ 252) (rest : Bytes) :
    tryExtractFrame (frameBytes tx adu ++ rest) = .frame (frameBytes tx adu).length := by
  have hlen : (frameBytes tx adu ++ rest).length = adu.data.length + 8 + rest.length := by
    rw [List.length_append, length_frameBytes]
  have h2 : (frameBytes tx adu ++ rest).getD 2 0 = 0 := rfl
  have h3 : (frameBytes tx adu ++ rest).getD 3 0 = 0 := rfl
  rw [tryExtractFrame, hlen, h2, h3, lengthField_frameBytes h, length_frameBytes, maxTcpFrame]
  rw [if_neg (by omega), if_neg (by simp only [ne_eq, not_true_eq_false, or_self, not_false_eq_true]),
    if_neg (by omega), if_neg (by omega), Nat.add_comm 6]

/-- The header fields of a buffer are those of every frame it is the beginning of. -/
theorem getD_of_prefix {p f : Bytes} (h : p <+: f) {i : Nat} (hi : i < p.length) :
    p.getD i 0 = f.getD i 0 := by
  obtain ⟨r, rfl⟩ := h
  exact (List.getD_append _ _ _ _ hi).symm

/-- A proper beginning of an encoded data unit is kept. -/
theorem tryExtractFrame_part {tx : UInt16} {adu : ApplicationDataUnit}
    (h : adu.data.length ≤ 252) {p : Bytes} (hp : p <+: frameBytes tx adu)
    (hne : p ≠ frameBytes tx adu) : tryExtractFrame p = .insufficient := by
  have hlt : p.length < (frameBytes tx adu).length :=
    Nat.lt_of_le_of_ne hp.length_le fun e => hne (hp.eq_of_length e)
  by_cases h8 : p.length < 8
  · rw [tryExtractFrame, if_pos h8]
  · have hfield : lengthField p = adu.data.length + 2 := by
      rw [lengthField, getD_of_prefix hp (by omega), getD_of_prefix hp (by omega)]
      exact List.append_nil (frameBytes tx adu) ▸ lengthField_frameBytes h []
    have h2 : p.getD 2 0 = 0 := getD_of_prefix hp (by omega)
    have h3 : p.getD 3 0 = 0 := getD_of_prefix hp (by omega)
    rw [length_frameBytes] at hlt
    rw [tryExtractFrame, if_neg h8, h2, h3, hfield, maxTcpFrame,
      if_neg (by simp only [ne_eq, not_true_eq_false, or_self, not_false_eq_true]),
      if_neg (by omega), if_pos (by omega)]

/-- The data unit read off its own encoding. -/
theorem aduOf_frameBytes {tx : UInt16} {adu : ApplicationDataUnit}
    (h : adu.transaction = some tx) : aduOf (frameBytes tx adu) = adu := by
  obtain ⟨transaction, unit, fc, data⟩ := adu
  cases h
  simp only [aduOf, frameBytes_eq, List.getD_cons_zero, List.getD_cons_succ, u16FromBe_toBe,
    List.drop_succ_cons, List.drop_zero]

/-! ## The reader of a connection -/

variable [DecidableEq κ]

theorem delimited_extract (k : κ) :
    Delimited (fun (response : ρ) b => ((extract response k b).2, (extract response k b).1))
      (Emit.framedFor k) fun f y => ∃ u, y = some u ∧ IsFrame f u where
  nil _ := rfl
  pos := by
    rintro f _ ⟨u, -, tx, -, -, -, rfl⟩
    exact List.cons_ne_nil _ _
  whole := by
    rintro _ _ ⟨⟨adu, f⟩, rfl, tx, htx, hlen, rfl, hf⟩ response b
    obtain rfl : f = frameBytes tx adu := hf
    refine ⟨.framing (framingOf response k (frameBytes tx adu)), ?_, ?_⟩
    · simp only [Emit.framedFor, framingOf, Framing.framed, ↓reduceIte, aduOf_frameBytes htx]
    · rw [extract_eq, tryExtractFrame_whole hlen]
      simp only [List.drop_left, List.take_left]
  part := by
    rintro _ _ ⟨⟨adu, f⟩, rfl, tx, htx, hlen, rfl, hf⟩ response p hp hne
    obtain rfl : f = frameBytes tx adu := hf
    simp only [extract_eq, tryExtractFrame_part hlen hp hne]

/-- What is kept of a buffer, and nothing when it is empty. -/
theorem kept_getD (b : Bytes) : (if b.isEmpty then none else some b).getD [] = b := by
  cases b <;> rfl

omit [DecidableEq κ] in
/-- What an event leaves in a buffer, and what it publishes. -/
theorem processEntry_getD (buffer : Option Bytes) (event : DataEvent κ ρ) :
    ((processEntry buffer event).1.getD [], (processEntry buffer event).2) =
      extract event.response event.connection (buffer.getD [] ++ event.data) := by
  rw [processEntry]
  dsimp only
  rw [kept_getD]
  rfl

/-- The reader of a connection: what it retains is its buffer, and nothing is no buffer. -/
def reader : Reader (processEntry (κ := κ) (ρ := ρ)) IsFrame where
  split k response b := ((extract response k b).2, (extract response k b).1)
  retained s := s.getD []
  inv s := s ≠ some []
  delimited := delimited_extract
  simulates := by
    intro s event _
    have hentry : ∀ b : Bytes, (if b.isEmpty then none else some b) ≠ some [] := by
      rintro (_ | ⟨x, b⟩) <;> exact nofun
    refine ⟨hentry _, [(event.response, event.data)], ?_, ?_⟩
    · exact List.append_nil _
    · simp only [feedAll_cons, feedAll_nil, feedSplit, List.append_nil]
      exact (processEntry_getD s event).symm
  own _ _ _ h := connection_of_mem_extractLoop h

/-! ## The retained bytes, whatever arrives -/

/-- Every buffer is shorter than the longest frame. -/
def Bounded (buffers : Buffers κ) : Prop := ∀ k b, buffers k = some b → b.length < maxTcpFrame

theorem bounded_step (buffers : Buffers κ) (input : LayerInput κ ρ) (h : Bounded buffers) :
    Bounded (step buffers input).1 := by
  intro k b hb
  cases input with
  | data event =>
    by_cases hk : k = event.connection
    · subst hk
      simp only [step, processDataEvent, Function.update_self, processEntry] at hb
      split at hb
      · cases hb
      · cases hb
        exact length_extractLoop_lt _ _ (Nat.le_refl _)
    · simp only [step, processDataEvent, Function.update_of_ne hk] at hb
      exact h k b hb
  | connectionClose connection =>
    by_cases hk : k = connection
    · subst hk
      simp only [step, Function.update_self, reduceCtorEq] at hb
    · simp only [step, Function.update_of_ne hk] at hb
      exact h k b hb
  | flush => cases hb

/-! ## The framing theorem -/

/-- **TCP framing.** The encodings of data units with a transaction id and at most 252 data bytes,
cut into data events and interleaved with other connections in any way, are published as exactly
those data units, in order, with no framing error, and no buffer is left. Whatever arrives, and
whatever connections close, fewer than 260 bytes are retained for a connection. -/
theorem framing_exact (counter : UInt16) :
    (∀ (events : List (DataEvent κ ρ)) (adus : κ → List ApplicationDataUnit),
      (∀ k, ∀ adu ∈ adus k, adu.transaction.isSome ∧ adu.data.length ≤ 252) →
      (∀ k, streamOf k events = ((adus k).map fun adu => (encode counter adu).2).flatten) →
      (∀ k, framedFor k (feedAll processDataEvent (fun _ => none) events).2 =
          (adus k).map fun adu => ⟨adu, (encode counter adu).2⟩) ∧
        framingErrors (feedAll processDataEvent (fun _ => none) events).2 = [] ∧
        ∀ k, (feedAll processDataEvent (fun _ => none) events).1 k = none) ∧
    ∀ (inputs : List (LayerInput κ ρ)) (k : κ),
      (((feedAll step (fun _ => none) inputs).1 k).getD []).length < 260 := by
  constructor
  · intro events adus hadus hcut
    have hencode : ∀ adu : ApplicationDataUnit, adu.transaction.isSome →
        ∃ tx, adu.transaction = some tx ∧ (encode counter adu).2 = frameBytes tx adu := by
      intro adu h
      obtain ⟨tx, htx⟩ := Option.isSome_iff_exists.mp h
      exact ⟨tx, htx, by simp only [encode, htx]⟩
    have hdelivers := reader.delivers (fun _ : κ => none) (fun _ => nofun) (fun _ => rfl)
      events (fun k => (adus k).map fun adu => ((encode counter adu).2, ⟨adu, (encode counter adu).2⟩))
      (by
        intro k p hp
        obtain ⟨adu, hadu, rfl⟩ := List.mem_map.mp hp
        obtain ⟨tx, htx, henc⟩ := hencode adu (hadus k adu hadu).1
        exact ⟨tx, htx, (hadus k adu hadu).2, rfl, henc⟩)
      (fun k => (hcut k).trans (by rw [List.map_map]; rfl))
    obtain ⟨hframed, herrors, hleft⟩ := hdelivers
    refine ⟨fun k => (hframed k).trans (by rw [List.map_map]; rfl), herrors, ?_⟩
    intro k
    obtain ⟨hinv, hret⟩ := hleft k
    cases hs : (feedAll processDataEvent (fun _ => none) events).1 k with
    | none => rfl
    | some b =>
      have hb : b = [] := by
        have := hret
        rw [show (feedAll (keyed (·.connection) processEntry) (fun _ => none) events).1 k = some b
          from hs] at this
        exact this
      exact absurd (hs.trans (congrArg some hb)) hinv
  · intro inputs k
    have hbound := feedAll_invariant (P := Bounded) (fun b i h => bounded_step (ρ := ρ) b i h) inputs
      (s := fun _ => none) (fun _ _ hb => nomatch hb)
    cases hs : (feedAll step (fun _ => none) inputs).1 k with
    | none => exact Nat.zero_lt_succ _
    | some b => exact hbound k b hs

/-- Two connections; the frame of the first is cut inside its length field, and the frame of the
second arrives in between. -/
theorem framing_exact_two_connections :
    framedFor false (feedAll processDataEvent (fun _ => none)
        [⟨[0, 1, 0, 0, 0], (), false⟩, ⟨[0, 7, 0, 0, 0, 3, 9, 0x83, 2], (), true⟩,
          ⟨[6, 1, 3, 0, 5, 0, 2], (), false⟩]).2 =
      [⟨⟨some 1, 1, 3, [0, 5, 0, 2]⟩, [0, 1, 0, 0, 0, 6, 1, 3, 0, 5, 0, 2]⟩] ∧
    (((feedAll step (fun _ => none)
        [LayerInput.data ⟨[0, 1, 0, 0, 255], (), false⟩]).1 false).getD []).length < 260 := by
  refine ⟨?_, (framing_exact 0).2 _ _⟩
  refine ((framing_exact 0).1 _ (fun k => cond k [⟨some 7, 9, 0x83, [2]⟩]
    [⟨some 1, 1, 3, [0, 5, 0, 2]⟩]) ?_ ?_).1 false
  · intro k
    cases k <;> decide
  · intro k
    cases k <;> decide

end RsModbus.Tcp
