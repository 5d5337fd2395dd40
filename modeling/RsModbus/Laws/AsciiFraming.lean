import Mathlib.Data.List.Induction
import RsModbus.Laws.Framing
import RsModbus.Application.Ascii

/-!
# ASCII framing

* `Ascii.grammar_exact`: whatever bytes arrive on a connection and however they are cut, the frames
  published are those that stand in the stream, position by position, and the framing errors of each
  kind are as many for every cut.

The grammar is `Ends`: the stream ends with a colon, a payload of accepted digits, and `tail`. It
says what each state of the machine means (`Reads`): inside a payload, behind its CR, or neither.
`reads_fsmByte` is the step lemma; a payload is completed exactly when the stream ends with it and
CR LF.
-/

namespace RsModbus.Ascii

open Library

variable {κ ρ : Type}

/-! ## The grammar -/

/-- The digits `p` stand for `bytes`, two for each. -/
inductive HexPairs : Bytes → Bytes → Prop where
  | nil : HexPairs [] []
  | cons {hi lo b : UInt8} {p bytes : Bytes} : hexDecodeByte hi lo = some b → HexPairs p bytes →
      HexPairs (hi :: lo :: p) (b :: bytes)

/-- The payload `p` is accepted, and what it carries: a body of at least two bytes followed by its
LRC. -/
def Accepts (lenientHex : Bool) (p : Bytes) (u : FramedDataUnit) : Prop :=
  p.length ≤ 512 ∧ (∀ c ∈ p, isHexChar c lenientHex) ∧ ∃ unit fc data,
    HexPairs p ((unit :: fc :: data) ++ [lrc (unit :: fc :: data)]) ∧
      u = ⟨⟨none, unit, fc, data⟩, colon :: p ++ [cr, lf]⟩

/-- The frame of `s` that ends at position `j`: for some `i < j`, `s[i..=j]` is a colon, an accepted
payload and CR LF. -/
def FrameAt (lenientHex : Bool) (s : Bytes) (j : Nat) (u : FramedDataUnit) : Prop :=
  ∃ i p, i < j ∧ j < s.length ∧ (s.take (j + 1)).drop i = colon :: p ++ [cr, lf] ∧
    Accepts lenientHex p u

/-- What is read of a frame: the stream ends with a colon, a payload and `tail`. -/
def Ends (lenientHex : Bool) (t q tail : Bytes) : Prop :=
  q.length ≤ 512 ∧ (∀ c ∈ q, isHexChar c lenientHex) ∧ (colon :: q ++ tail) <:+ t

section Grammar

variable {lenientHex : Bool} {t q q' : Bytes} {b : UInt8}

theorem suffix_snoc_iff {α : Type} {xs ys : List α} {a c : α} :
    (xs ++ [a]) <:+ (ys ++ [c]) ↔ c = a ∧ xs <:+ ys := by
  constructor
  · rintro ⟨pre, h⟩
    rw [← List.append_assoc] at h
    obtain ⟨h1, h2⟩ := List.append_inj' h rfl
    exact ⟨(List.singleton_inj.mp h2).symm, pre, h1⟩
  · rintro ⟨rfl, pre, rfl⟩
    exact ⟨pre, by rw [List.append_assoc]⟩

theorem not_ends_nil {tail : Bytes} : ¬ Ends lenientHex [] q tail :=
  fun h => List.cons_ne_nil _ _ (List.suffix_nil.mp h.2.2)

/-- A stream that ends with `tail ++ [a]` has just read `a`. -/
theorem ends_snoc (tail : Bytes) {a : UInt8} :
    Ends lenientHex (t ++ [b]) q (tail ++ [a]) ↔ b = a ∧ Ends lenientHex t q tail := by
  simp only [Ends, ← List.append_assoc, suffix_snoc_iff]
  constructor
  · rintro ⟨hlen, hhex, rfl, hsuf⟩
    exact ⟨rfl, hlen, hhex, hsuf⟩
  · rintro ⟨rfl, hlen, hhex, hsuf⟩
    exact ⟨hlen, hhex, rfl, hsuf⟩

theorem ends_cr : Ends lenientHex (t ++ [b]) q [cr] ↔ b = cr ∧ Ends lenientHex t q [] :=
  ends_snoc []

theorem ends_lf : Ends lenientHex (t ++ [b]) q [cr, lf] ↔ b = lf ∧ Ends lenientHex t q [cr] :=
  ends_snoc [cr]

/-- A payload begins with a colon and grows by a digit. -/
theorem ends_open : Ends lenientHex (t ++ [b]) q [] ↔ (b = colon ∧ q = []) ∨
    ∃ p, q = p ++ [b] ∧ p.length < 512 ∧ isHexChar b lenientHex ∧ Ends lenientHex t p [] := by
  constructor
  · rintro ⟨hlen, hhex, hsuf⟩
    rcases List.eq_nil_or_concat' q with rfl | ⟨p, c, rfl⟩
    · have hcolon : [] ++ [colon] <:+ t ++ [b] := hsuf
      exact .inl ⟨(suffix_snoc_iff.mp hcolon).1, rfl⟩
    · rw [List.append_nil, ← List.cons_append] at hsuf
      obtain ⟨rfl, hsuf'⟩ := suffix_snoc_iff.mp hsuf
      rw [List.length_append, List.length_singleton] at hlen
      refine .inr ⟨p, rfl, hlen, hhex b (List.mem_append_right _ List.mem_cons_self), ?_⟩
      exact ⟨Nat.le_of_succ_le hlen, fun c hc => hhex c (List.mem_append_left _ hc),
        by rwa [List.append_nil]⟩
  · rintro (⟨rfl, rfl⟩ | ⟨p, rfl, hlen, hb, -, hhex, hsuf⟩)
    · exact ⟨Nat.zero_le _, nofun, List.suffix_append _ _⟩
    · refine ⟨by rw [List.length_append]; exact hlen, ?_, ?_⟩
      · intro c hc
        rcases List.mem_append.mp hc with hc | hc
        · exact hhex c hc
        · rwa [List.mem_singleton.mp hc]
      · rw [List.append_nil] at hsuf ⊢
        rw [← List.cons_append]
        exact suffix_snoc_iff.mpr ⟨rfl, hsuf⟩

theorem isHexChar_colon : isHexChar colon lenientHex = false := by cases lenientHex <;> rfl

theorem isHexChar_cr : isHexChar cr lenientHex = false := by cases lenientHex <;> rfl

/-- The payload that is being read is one: it begins behind the last colon. -/
theorem ends_unique (h : Ends lenientHex t q []) (h' : Ends lenientHex t q' []) : q = q' := by
  -- were one payload longer, it would contain the other's colon
  have longer : ∀ {p p' : Bytes}, (∀ c ∈ p', isHexChar c lenientHex) →
      (colon :: p) <:+ (colon :: p') → p = p' := by
    intro p p' hhex hsuf
    rcases List.suffix_cons_iff.mp hsuf with heq | hsuf
    · exact (List.cons.inj heq).2
    · have := hhex colon (hsuf.subset List.mem_cons_self)
      rw [isHexChar_colon] at this
      cases this
  have hq := h.2.2
  have hq' := h'.2.2
  rw [List.append_nil] at hq hq'
  rcases List.suffix_or_suffix_of_suffix hq hq' with hsuf | hsuf
  · exact longer h'.2.1 hsuf
  · exact (longer h.2.1 hsuf).symm

theorem ends_cr_unique (h : Ends lenientHex t q [cr]) (h' : Ends lenientHex t q' [cr]) : q = q' := by
  rcases List.eq_nil_or_concat' t with rfl | ⟨t, b, rfl⟩
  · exact absurd h not_ends_nil
  · exact ends_unique (ends_cr.mp h).2 (ends_cr.mp h').2

/-- A stream inside a payload is not behind the payload's CR. -/
theorem not_ends_cr_of_open (h : Ends lenientHex t q []) : ¬ Ends lenientHex t q' [cr] := by
  rcases List.eq_nil_or_concat' t with rfl | ⟨t, b, rfl⟩
  · exact absurd h not_ends_nil
  · rintro hcr
    obtain ⟨rfl, -⟩ := ends_cr.mp hcr
    rcases ends_open.mp h with ⟨h, -⟩ | ⟨p, -, -, h, -⟩
    · exact absurd h (by decide)
    · rw [isHexChar_cr] at h
      cases h

end Grammar

/-! ## The state machine reads the grammar -/

/-- What a state means for the stream read so far. -/
def Reads (lenientHex : Bool) (t : Bytes) (state : ConnectionState) : Prop :=
  match state.status with
  | .reception => Ends lenientHex t state.frame []
  | .waitingEnd => Ends lenientHex t state.frame [cr]
  | .idle => state.frame = [] ∧ ∀ q, ¬ Ends lenientHex t q [] ∧ ¬ Ends lenientHex t q [cr]

theorem reads_init (lenientHex : Bool) : Reads lenientHex [] {} :=
  ⟨rfl, fun _ => ⟨not_ends_nil, not_ends_nil⟩⟩

variable {lenientHex : Bool} {t : Bytes} {state : ConnectionState}

/-- The machine reads one more byte as the grammar does: it completes the payload that ends there. -/
def ReadsByte (lenientHex : Bool) (t : Bytes) (state : ConnectionState) (b : UInt8) : Prop :=
  Reads lenientHex (t ++ [b]) (fsmByte lenientHex state b).1 ∧
    ((∃ q, Ends lenientHex (t ++ [b]) q [cr, lf] ∧
        (fsmByte lenientHex state b).2.filterMap FsmEvent.payload = [q]) ∨
      (∀ q, ¬ Ends lenientHex (t ++ [b]) q [cr, lf]) ∧
        (fsmByte lenientHex state b).2.filterMap FsmEvent.payload = [])

/-- A colon opens a payload, whatever came before. -/
theorem ends_colon {b : UInt8} (hb : b = colon) : Ends lenientHex (t ++ [b]) [] [] :=
  ends_open.mpr (.inl ⟨hb, rfl⟩)

/-- No frame ends right after a stream that has not just read its CR. -/
theorem not_ends_lf {b : UInt8} (h : ∀ q, ¬ Ends lenientHex t q [cr]) :
    ∀ q, ¬ Ends lenientHex (t ++ [b]) q [cr, lf] :=
  fun q hq => h q (ends_lf.mp hq).2

theorem reads_idle (h : ∀ q, ¬ Ends lenientHex t q [] ∧ ¬ Ends lenientHex t q [cr]) (b : UInt8) :
    ReadsByte lenientHex t ⟨.idle, []⟩ b := by
  have hsilent : ∀ q, ¬ Ends lenientHex (t ++ [b]) q [cr, lf] := not_ends_lf fun q => (h q).2
  simp only [ReadsByte, fsmByte]
  split
  next hb => exact ⟨ends_colon hb, .inr ⟨hsilent, rfl⟩⟩
  next hb =>
    refine ⟨⟨rfl, fun q => ⟨?_, fun hq => (h q).1 (ends_cr.mp hq).2⟩⟩,
      .inr ⟨hsilent, rfl⟩⟩
    intro hq
    rcases ends_open.mp hq with ⟨hb', -⟩ | ⟨p, -, -, -, hp⟩
    · exact hb hb'
    · exact (h p).1 hp

theorem reads_reception {frame : Bytes} (h : Ends lenientHex t frame []) (b : UInt8) :
    ReadsByte lenientHex t ⟨.reception, frame⟩ b := by
  have hsilent : ∀ q, ¬ Ends lenientHex (t ++ [b]) q [cr, lf] :=
    not_ends_lf fun q => not_ends_cr_of_open h
  -- a byte that is neither colon nor CR and does not extend the payload ends it
  have dropped : b ≠ colon → b ≠ cr → (frame.length < 512 → isHexChar b lenientHex = false) →
      ∀ q, ¬ Ends lenientHex (t ++ [b]) q [] ∧ ¬ Ends lenientHex (t ++ [b]) q [cr] := by
    intro hcolon hcr hbad q
    refine ⟨?_, fun hq => hcr (ends_cr.mp hq).1⟩
    intro hq
    rcases ends_open.mp hq with ⟨hb', -⟩ | ⟨p, -, hlen, hhex, hp⟩
    · exact hcolon hb'
    · rw [ends_unique hp h] at hlen
      rw [hbad hlen] at hhex
      cases hhex
  simp only [ReadsByte, fsmByte]
  split
  next hb => exact ⟨ends_colon hb, .inr ⟨hsilent, rfl⟩⟩
  next hcolon =>
    split
    next hb => exact ⟨ends_cr.mpr ⟨hb, h⟩, .inr ⟨hsilent, rfl⟩⟩
    next hcr =>
      split
      next hfull =>
        exact ⟨⟨rfl, dropped hcolon hcr fun hlt => absurd hlt (Nat.not_lt.mpr hfull)⟩,
          .inr ⟨hsilent, rfl⟩⟩
      next hroom =>
        cases hhex : isHexChar b lenientHex with
        | false => exact ⟨⟨rfl, dropped hcolon hcr fun _ => hhex⟩, .inr ⟨hsilent, rfl⟩⟩
        | true =>
          exact ⟨ends_open.mpr (.inr ⟨frame, rfl, Nat.lt_of_not_le hroom, hhex, h⟩),
            .inr ⟨hsilent, rfl⟩⟩

theorem reads_waitingEnd {frame : Bytes} (h : Ends lenientHex t frame [cr]) (b : UInt8) :
    ReadsByte lenientHex t ⟨.waitingEnd, frame⟩ b := by
  have hnone : ∀ q, ¬ Ends lenientHex t q [] := fun q hq => not_ends_cr_of_open hq h
  have closed : b ≠ colon →
      ∀ q, ¬ Ends lenientHex (t ++ [b]) q [] ∧ ¬ Ends lenientHex (t ++ [b]) q [cr] := by
    intro hcolon q
    refine ⟨?_, fun hq => hnone q (ends_cr.mp hq).2⟩
    intro hq
    rcases ends_open.mp hq with ⟨hb', -⟩ | ⟨p, -, -, -, hp⟩
    · exact hcolon hb'
    · exact hnone p hp
  simp only [ReadsByte, fsmByte]
  split
  next hb =>
    refine ⟨ends_colon hb, .inr ⟨?_, rfl⟩⟩
    intro q hq
    exact absurd (hb.symm.trans (ends_lf.mp hq).1) (by decide)
  next hcolon =>
    split
    next hb => exact ⟨⟨rfl, closed hcolon⟩, .inl ⟨frame, ends_lf.mpr ⟨hb, h⟩, rfl⟩⟩
    next hlf => exact ⟨⟨rfl, closed hcolon⟩, .inr ⟨fun q hq => hlf (ends_lf.mp hq).1, rfl⟩⟩

theorem reads_fsmByte (h : Reads lenientHex t state) (b : UInt8) : ReadsByte lenientHex t state b := by
  obtain ⟨status, frame⟩ := state
  cases status with
  | idle =>
    obtain ⟨rfl, hnone⟩ : frame = [] ∧ ∀ q, ¬ Ends lenientHex t q [] ∧ ¬ Ends lenientHex t q [cr] := h
    exact reads_idle hnone b
  | reception => exact reads_reception h b
  | waitingEnd => exact reads_waitingEnd h b

/-- What ends at a position of a longer stream ends at one of the shorter, or at the last. -/
theorem position_snoc (P : Bytes → Prop) (s : Bytes) (b : UInt8) (j : Nat) :
    (j < (s ++ [b]).length ∧ P ((s ++ [b]).take (j + 1))) ↔
      (j < s.length ∧ P (s.take (j + 1))) ∨ (j = s.length ∧ P (s ++ [b])) := by
  rw [List.length_append, List.length_singleton]
  rcases Nat.lt_trichotomy j s.length with hj | rfl | hj
  · rw [List.take_append_of_le_length hj]
    constructor
    · exact fun h => .inl ⟨hj, h.2⟩
    · rintro (h | ⟨rfl, -⟩)
      · exact ⟨by omega, h.2⟩
      · omega
  · rw [List.take_of_length_le (Nat.le_of_eq (by rw [List.length_append, List.length_singleton]))]
    constructor
    · exact fun h => .inr ⟨rfl, h.2⟩
    · rintro (h | h)
      · omega
      · exact ⟨by omega, h.2⟩
  · constructor
    · intro h
      omega
    · rintro (h | h) <;> omega

/-- **The machine over a whole stream**: it completes the payloads that stand in the stream, in the
order of the positions where they end. -/
theorem completed_positions (lenientHex : Bool) (s : Bytes) :
    Reads lenientHex s (feedAll (fsmByte lenientHex) {} s).1 ∧ ∃ found : List (Nat × Bytes),
      found.Pairwise (·.1 < ·.1) ∧
      (∀ j q, (j, q) ∈ found ↔ j < s.length ∧ Ends lenientHex (s.take (j + 1)) q [cr, lf]) ∧
      (feedAll (fsmByte lenientHex) {} s).2.filterMap FsmEvent.payload = found.map Prod.snd := by
  induction s using List.reverseRecOn with
  | nil => exact ⟨reads_init lenientHex, [], .nil, fun _ _ => ⟨nofun, fun h => nomatch h.1⟩, rfl⟩
  | append_singleton s b ih =>
    obtain ⟨hreads, found, hsorted, hfound, hout⟩ := ih
    obtain ⟨hreads', hcase⟩ := reads_fsmByte hreads b
    have hrun : (feedAll (fsmByte lenientHex) {} (s ++ [b])).2.filterMap FsmEvent.payload =
        found.map Prod.snd ++ (fsmByte lenientHex (feedAll (fsmByte lenientHex) {} s).1 b).2.filterMap
          FsmEvent.payload := by
      rw [feedAll_append, List.filterMap_append, hout, feedAll_cons, feedAll_nil, List.append_nil]
    have hsplit : ∀ j q, (j < (s ++ [b]).length ∧
          Ends lenientHex ((s ++ [b]).take (j + 1)) q [cr, lf]) ↔
        (j, q) ∈ found ∨ (j = s.length ∧ Ends lenientHex (s ++ [b]) q [cr, lf]) := by
      intro j q
      rw [hfound]
      exact position_snoc (Ends lenientHex · q [cr, lf]) s b j
    constructor
    · rw [feedAll_append]
      exact hreads'
    · rcases hcase with ⟨q, hq, hpay⟩ | ⟨hno, hpay⟩
      · refine ⟨found ++ [(s.length, q)], ?_, ?_, ?_⟩
        · refine List.pairwise_append.mpr ⟨hsorted, List.pairwise_singleton _ _, ?_⟩
          intro x hx y hy
          rw [List.mem_singleton.mp hy]
          exact ((hfound x.1 x.2).mp hx).1
        · intro j p
          rw [hsplit, List.mem_append, List.mem_singleton, Prod.mk.injEq]
          refine or_congr Iff.rfl (and_congr Iff.rfl ⟨fun h => h ▸ hq, ?_⟩)
          intro h
          exact ends_cr_unique (ends_lf.mp h).2 (ends_lf.mp hq).2
        · rw [hrun, hpay, List.map_append]
          rfl
      · refine ⟨found, hsorted, ?_, ?_⟩
        · intro j p
          rw [hsplit]
          exact ⟨.inl, fun h => h.resolve_right fun h => hno p h.2⟩
        · rw [hrun, hpay, List.append_nil]

/-! ## Payloads -/

theorem decodePairs_eq_ok {p bytes : Bytes} (heven : p.length % 2 = 0) :
    decodePairs p = .ok bytes ↔ HexPairs p bytes := by
  match p, heven with
  | [], _ =>
    simp only [decodePairs, Except.ok.injEq]
    exact ⟨fun h => h ▸ .nil, fun h => by cases h; rfl⟩
  | [_], h => simp only [List.length_singleton, Nat.reduceMod, Nat.succ_ne_self] at h
  | hi :: lo :: p, h =>
    have ih : ∀ bytes, decodePairs p = .ok bytes ↔ HexPairs p bytes := fun _ =>
      decodePairs_eq_ok (by simp only [List.length_cons] at h; omega)
    simp only [decodePairs]
    cases hb : hexDecodeByte hi lo with
    | none =>
      refine ⟨nofun, ?_⟩
      rintro (_ | ⟨hb', -⟩)
      rw [hb] at hb'
      cases hb'
    | some b =>
      cases hrest : decodePairs p with
      | error e =>
        refine ⟨nofun, ?_⟩
        rintro (_ | ⟨-, h⟩)
        rw [(ih _).mpr h] at hrest
        cases hrest
      | ok rest =>
        constructor
        · rintro ⟨⟩
          exact .cons hb ((ih rest).mp hrest)
        · rintro (_ | ⟨hb', h⟩)
          rw [hb] at hb'
          cases hb'
          rw [(ih _).mpr h] at hrest
          cases hrest
          rfl

theorem HexPairs.length {p bytes : Bytes} (h : HexPairs p bytes) : p.length = 2 * bytes.length := by
  induction h with
  | nil => rfl
  | cons _ _ ih => simp only [List.length_cons, ih, Nat.mul_succ]

/-- Three bytes or more are a unit, a function code, data and a last byte. -/
theorem exists_body {bytes : Bytes} (h : ¬ bytes.length < 3) :
    ∃ unit fc data l, bytes = (unit :: fc :: data) ++ [l] := by
  match bytes, h with
  | unit :: fc :: rest, h =>
    rcases List.eq_nil_or_concat' rest with rfl | ⟨data, l, rfl⟩
    · exact absurd (show 2 < 3 by decide) h
    · exact ⟨unit, fc, data, l, rfl⟩
  | [_], h => exact absurd (show 1 < 3 by decide) h
  | [], h => exact absurd (show 0 < 3 by decide) h

/-- The last byte and those before it, as `decode_payload` takes them apart. -/
theorem body_parts (unit fc : UInt8) (data : Bytes) (l : UInt8) :
    let bytes := (unit :: fc :: data) ++ [l]
    bytes.getD (bytes.length - 1) 0 = l ∧ bytes.take (bytes.length - 1) = unit :: fc :: data ∧
      ¬ bytes.length < 3 := by
  intro bytes
  have hlen : bytes.length - 1 = (unit :: fc :: data).length := by
    simp only [bytes, List.length_append, List.length_singleton, Nat.add_sub_cancel]
  refine ⟨?_, ?_, ?_⟩
  · rw [hlen, List.getD_eq_getElem?_getD, List.getElem?_concat_length]
    rfl
  · rw [hlen, List.take_left]
  · simp only [bytes, List.length_append, List.length_cons]
    omega

/-- What `decode_payload` accepts, and what it makes of it. -/
theorem decodePayload_eq_ok {p raw : Bytes} {adu : ApplicationDataUnit} :
    decodePayload p = .ok (adu, raw) ↔ ∃ unit fc data,
      HexPairs p ((unit :: fc :: data) ++ [lrc (unit :: fc :: data)]) ∧
        adu = ⟨none, unit, fc, data⟩ ∧ raw = colon :: p ++ [cr, lf] := by
  constructor
  · intro h
    unfold decodePayload at h
    split at h
    · cases h
    next heven =>
      cases hpairs : decodePairs p with
      | error e =>
        rw [hpairs] at h
        cases h
      | ok bytes =>
        have hhex := (decodePairs_eq_ok (Decidable.not_not.mp heven)).mp hpairs
        rw [hpairs] at h
        simp only [bind, Except.bind] at h
        split at h
        · cases h
        next hlen =>
          obtain ⟨unit, fc, data, l, rfl⟩ := exists_body hlen
          obtain ⟨hlast, htake, -⟩ := body_parts unit fc data l
          simp only [hlast, htake] at h
          split at h
          · cases h
          next hlrc =>
            cases h
            rw [Decidable.not_not.mp hlrc] at hhex
            exact ⟨unit, fc, data, hhex, rfl, rfl⟩
  · rintro ⟨unit, fc, data, hhex, rfl, rfl⟩
    have heven : p.length % 2 = 0 := by
      rw [hhex.length]
      exact Nat.mul_mod_right 2 _
    obtain ⟨hlast, htake, hlen⟩ := body_parts unit fc data (lrc (unit :: fc :: data))
    unfold decodePayload
    rw [if_neg (not_not_intro heven), (decodePairs_eq_ok heven).mpr hhex]
    simp only [bind, Except.bind, if_neg hlen, hlast, htake, ne_eq, not_true_eq_false, ↓reduceIte]
    rfl

/-! ## One connection, chunk by chunk -/

/-- The framed data unit a payload decodes to. -/
def decoded (p : Bytes) : Option FramedDataUnit :=
  match decodePayload p with
  | .ok (adu, raw) => some ⟨adu, raw⟩
  | .error _ => none

/-- The framing error an event is published as. -/
def errorOf : FsmEvent → Option ModbusError
  | .overflow => some .invalidData
  | .invalidHex => some .invalidHex
  | .completed p =>
    match decodePayload p with
    | .ok _ => none
    | .error e => some e

theorem framedFor_publish [DecidableEq κ] (response : ρ) (k : κ) (events : List FsmEvent) :
    framedFor k (publish response k events) =
      (events.filterMap FsmEvent.payload).filterMap decoded := by
  have errors : ∀ (n : Nat) (e : ModbusError),
      framedFor k (List.replicate n (.framingError e : Emit κ ρ)) = [] := fun n e =>
    List.filterMap_eq_nil_iff.mpr fun x hx => by rw [(List.mem_replicate.mp hx).2]; rfl
  rw [publish, framedFor_append, framedFor_append, errors, errors, List.nil_append, List.nil_append,
    framedFor, List.filterMap_map]
  apply List.filterMap_congr
  intro p _
  simp only [Function.comp, publishPayload, decoded]
  cases decodePayload p with
  | error e => rfl
  | ok r => simp only [Emit.framedFor, Framing.framed, ↓reduceIte]

/-- The errors published for a chunk are those of its events, overflows first. -/
theorem framingErrors_publish (response : ρ) (k : κ) (events : List FsmEvent) :
    (framingErrors (publish response k events)).Perm (events.filterMap errorOf) := by
  have errors : ∀ (n : Nat) (e : ModbusError),
      framingErrors (List.replicate n (.framingError e : Emit κ ρ)) = List.replicate n e := by
    intro n e
    induction n with
    | zero => rfl
    | succ n ih => exact congrArg (e :: ·) ih
  simp only [publish, framingErrors_append, errors]
  induction events with
  | nil => exact .nil
  | cons event events ih =>
    cases event with
    | overflow =>
      simp only [List.count_cons_self, List.count_cons_of_ne, ne_eq, reduceCtorEq,
        not_false_eq_true, List.replicate_succ, List.cons_append]
      exact ih.cons _
    | invalidHex =>
      simp only [List.count_cons_self, List.count_cons_of_ne, ne_eq, reduceCtorEq,
        not_false_eq_true, List.replicate_succ, List.append_assoc, List.cons_append] at ih ⊢
      exact List.perm_middle.trans (ih.cons _)
    | completed p =>
      simp only [List.count_cons_of_ne, ne_eq, reduceCtorEq, not_false_eq_true,
        List.filterMap_cons, FsmEvent.payload, List.map_cons, publishPayload, errorOf]
      cases decodePayload p with
      | ok r => exact ih
      | error e => exact List.perm_middle.trans (ih.cons _)

/-- The machine of a connection over its events is the machine over its stream. -/
theorem feedAll_driveEntry [DecidableEq κ] (lenientHex : Bool) {k : κ} :
    ∀ (events : List (DataEvent κ ρ)) (entry : Option ConnectionState),
      (∀ event ∈ events, event.connection = k) →
      let stream := (events.map (·.data)).flatten
      let run := feedAll (driveEntry lenientHex) entry events
      let whole := feedAll (fsmByte lenientHex) (entry.getD {}) stream
      run.1.getD {} = whole.1 ∧
        framedFor k run.2 = (whole.2.filterMap FsmEvent.payload).filterMap decoded ∧
        (framingErrors run.2).Perm (whole.2.filterMap errorOf)
  | [], _, _ => ⟨rfl, rfl, .nil⟩
  | event :: events, entry, mine => by
    have hentry : ∀ state : ConnectionState,
        (if state.status = .idle ∧ state.frame.isEmpty then none else some state).getD {} =
          state := by
      rintro ⟨status, frame⟩
      split
      next h =>
        obtain ⟨rfl, hnil⟩ := h
        obtain rfl : frame = [] := List.isEmpty_iff.mp hnil
        rfl
      · rfl
    obtain ⟨hstate, hframed, herrors⟩ := feedAll_driveEntry lenientHex events
      (driveEntry lenientHex entry event).1 fun e he => mine e (List.mem_cons_of_mem _ he)
    have hk : event.connection = k := mine event List.mem_cons_self
    simp only [driveEntry, hentry] at hstate hframed herrors
    simp only [List.map_cons, List.flatten_cons, feedAll_cons, feedAll_append, framedFor_append,
      framingErrors_append, List.filterMap_append]
    refine ⟨hstate, congrArg₂ (· ++ ·) ?_ hframed, List.Perm.append ?_ herrors⟩
    · simp only [driveEntry, hk, framedFor_publish]
    · exact framingErrors_publish _ _ _

/-! ## The framing theorem -/

variable [DecidableEq κ]

theorem driveEntry_other (lenientHex : Bool) {k : κ} {entry : Option ConnectionState}
    {event : DataEvent κ ρ} {x : Emit κ ρ} (hk : event.connection ≠ k)
    (hx : x ∈ (driveEntry lenientHex entry event).2) : Emit.framedFor k x = none := by
  cases x with
  | framingError e => rfl
  | framing f =>
    rcases List.mem_append.mp hx with hx | hx
    · rcases List.mem_append.mp hx with hx | hx <;> cases (List.mem_replicate.mp hx).2
    · obtain ⟨p, -, hp⟩ := List.mem_map.mp hx
      unfold publishPayload at hp
      split at hp
      · cases hp
        exact if_neg hk
      · cases hp

/-- The frame at a position is the decoded payload that ends there. -/
theorem frameAt_iff {lenientHex : Bool} {s : Bytes} {j : Nat} {u : FramedDataUnit} :
    FrameAt lenientHex s j u ↔ ∃ p, (j < s.length ∧ Ends lenientHex (s.take (j + 1)) p [cr, lf]) ∧
      decoded p = some u := by
  have hdecoded : ∀ p, decoded p = some u ↔ ∃ unit fc data,
      HexPairs p ((unit :: fc :: data) ++ [lrc (unit :: fc :: data)]) ∧
        u = ⟨⟨none, unit, fc, data⟩, colon :: p ++ [cr, lf]⟩ := by
    intro p
    obtain ⟨adu, raw⟩ := u
    have hiff : decodePayload p = .ok (adu, raw) ↔ _ := decodePayload_eq_ok
    unfold decoded
    cases hd : decodePayload p with
    | error e =>
      refine ⟨nofun, ?_⟩
      rintro ⟨unit, fc, data, hhex, h⟩
      cases h
      rw [hiff.mpr ⟨unit, fc, data, hhex, rfl, rfl⟩] at hd
      cases hd
    | ok r =>
      rw [hd] at hiff
      simp only [Option.some.injEq, FramedDataUnit.mk.injEq]
      rw [← Prod.mk.injEq, ← Except.ok.injEq (ε := ModbusError)]
      exact hiff
  constructor
  · rintro ⟨i, p, hij, hj, hcut, hlen, hhex, hacc⟩
    exact ⟨p, ⟨hj, hlen, hhex, ⟨_, hcut ▸ List.take_append_drop i _⟩⟩, (hdecoded p).mpr hacc⟩
  · rintro ⟨p, ⟨hj, hlen, hhex, pre, hpre⟩, hdec⟩
    have htotal := congrArg List.length hpre
    simp only [List.length_append, List.length_cons, List.length_take, List.length_nil] at htotal
    refine ⟨pre.length, p, by omega, hj, ?_, hlen, hhex, (hdecoded p).mp hdec⟩
    rw [← hpre, List.drop_left]

/-- **ASCII framing.** Under every cut of a connection's stream, and whatever the other connections
send, the frames published for the connection are those of the grammar, position by position; and
two cuts of one stream report equally many framing errors of each kind. -/
theorem grammar_exact (lenientHex : Bool) :
    (∀ (events : List (DataEvent κ ρ)) (k : κ), ∃ found : List (Nat × FramedDataUnit),
      found.Pairwise (·.1 < ·.1) ∧
      (∀ j u, (j, u) ∈ found ↔ FrameAt lenientHex (streamOf k events) j u) ∧
      framedFor k (feedAll (driveFsm lenientHex) (fun _ => none) events).2 =
        found.map Prod.snd) ∧
    ∀ (k : κ) (events events' : List (DataEvent κ ρ)), (∀ event ∈ events, event.connection = k) →
      (∀ event ∈ events', event.connection = k) → streamOf k events = streamOf k events' →
      ∀ e, (framingErrors (feedAll (driveFsm lenientHex) (fun _ => none) events).2).count e =
        (framingErrors (feedAll (driveFsm lenientHex) (fun _ => none) events').2).count e := by
  constructor
  · intro events k
    have hone := feedAll_driveEntry (ρ := ρ) lenientHex (events.filter (·.connection = k)) none
      fun event he => of_decide_eq_true (List.mem_filter.mp he).2
    obtain ⟨-, found, hsorted, hfound, hpayloads⟩ := completed_positions lenientHex (streamOf k events)
    refine ⟨found.filterMap fun x => (decoded x.2).map (x.1, ·), ?_, ?_, ?_⟩
    · refine List.pairwise_filterMap.mpr (hsorted.imp fun {a b} hab => ?_)
      intro x hx y hy
      obtain ⟨-, -, rfl⟩ := Option.map_eq_some_iff.mp hx
      obtain ⟨-, -, rfl⟩ := Option.map_eq_some_iff.mp hy
      exact hab
    · intro j u
      rw [frameAt_iff, List.mem_filterMap]
      constructor
      · rintro ⟨⟨i, p⟩, hmem, hx⟩
        obtain ⟨v, hv, hx⟩ := Option.map_eq_some_iff.mp hx
        cases hx
        exact ⟨p, (hfound i p).mp hmem, hv⟩
      · rintro ⟨p, hp, hu⟩
        exact ⟨(j, p), (hfound j p).mpr hp, Option.map_eq_some_iff.mpr ⟨u, hu, rfl⟩⟩
    · refine (feedAll_keyed_proj (fun s event x hne hx => driveEntry_other lenientHex hne hx)
        (fun _ => none) events).trans (hone.2.1.trans ?_)
      refine (congrArg _ hpayloads).trans ?_
      rw [List.filterMap_map, List.map_filterMap]
      apply List.filterMap_congr
      intro x _
      simp only [Function.comp, Option.map_map]
      exact (congrFun Option.map_id _).symm
  · intro k events events' mine mine' hstream e
    have one : ∀ evs : List (DataEvent κ ρ), (∀ event ∈ evs, event.connection = k) →
        (framingErrors (feedAll (driveFsm lenientHex) (fun _ => none) evs).2).Perm
          ((feedAll (fsmByte lenientHex) {} (streamOf k evs)).2.filterMap errorOf) := by
      intro evs hevs
      have hfilter : evs.filter (·.connection = k) = evs :=
        List.filter_eq_self.mpr fun event he => decide_eq_true (hevs event he)
      rw [streamOf, hfilter]
      have hrun : (feedAll (driveFsm lenientHex) (fun _ => none) evs).2 =
          (feedAll (driveEntry lenientHex) none evs).2 := feedAll_keyed_one (fun _ => none) hevs
      rw [hrun]
      exact (feedAll_driveEntry lenientHex evs none hevs).2.2
    rw [((one events mine).trans (hstream ▸ (one events' mine').symm)).count_eq]

/-- A frame whose beginning is lost, `:0103FC` behind it, and a frame with a character that is no digit: in
one chunk, and cut before the LF and inside of the last frame. -/
theorem grammar_exact_two_cuts :
    let lost : Bytes := [0x3a, 0x30, 0x31, 0x47]
    let whole : Bytes := [0x3a, 0x30, 0x31, 0x30, 0x33, 0x46, 0x43, 0x0d]
    let once : List (DataEvent Nat Unit) := [⟨lost ++ whole ++ [0x0a, 0x3a, 0x30, 0x47, 0x0d, 0x0a], (), 0⟩]
    let cut : List (DataEvent Nat Unit) :=
      [⟨lost ++ whole, (), 0⟩, ⟨[0x0a, 0x3a, 0x30], (), 0⟩, ⟨[0x47, 0x0d, 0x0a], (), 0⟩]
    let frame : FramedDataUnit := ⟨⟨none, 1, 3, []⟩, whole ++ [0x0a]⟩
    framedFor 0 (feedAll (driveFsm false) (fun _ => none) cut).2 = [frame] ∧
      (∃ j, FrameAt false (streamOf 0 cut) j frame) ∧
      (framingErrors (feedAll (driveFsm false) (fun _ => none) once).2).count .invalidHex =
        (framingErrors (feedAll (driveFsm false) (fun _ => none) cut).2).count .invalidHex := by
  intro lost whole once cut frame
  have hframed : framedFor 0 (feedAll (driveFsm false) (fun _ => none) cut).2 = [frame] := by decide
  refine ⟨hframed, ?_, (grammar_exact false).2 0 once cut (by decide) (by decide) (by decide) .invalidHex⟩
  obtain ⟨found, -, hfound, hpublished⟩ := (grammar_exact false).1 cut 0
  have hmem : frame ∈ found.map Prod.snd := by
    rw [← hpublished, hframed]
    exact List.mem_singleton_self frame
  obtain ⟨x, hx, hframe⟩ := List.mem_map.mp hmem
  exact ⟨x.1, (hfound x.1 frame).mp (hframe ▸ hx)⟩

end RsModbus.Ascii
