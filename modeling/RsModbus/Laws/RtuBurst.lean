import RsModbus.Laws.RtuFraming
import RsModbus.Laws.RtuStream

/-!
# Bursts on a Serial transport

`Rtu.burst_delivered_iff`: frames received back to back, and then a silence, are all delivered and no
error is reported, exactly when every flush that the size of the pool triggers comes at the end of a
frame. A flush of a Serial transport is strict: what it finds of a frame that is still to come is
reported and dropped.
-/

namespace RsModbus.Rtu

open Library

variable {κ ρ : Type}

/-! ## Ends of frames -/

/-- A frame ends at this position of the stream, or it is the beginning. -/
def EndsFrame (frames : List Bytes) (position : Nat) : Prop :=
  ∃ done todo, frames = done ++ todo ∧ done.flatten.length = position

/-- A part of a frame, neither empty nor whole. -/
def PartOf (isResponse : Bool) (p f : Bytes) : Prop :=
  WellFormed isResponse f ∧ p <+: f ∧ p ≠ f ∧ p ≠ []

variable {isResponse : Bool}

/-- What is at the front of a stream of frames: whole frames, and part of the next one. -/
theorem exists_whole_of_prefix {todo : List Bytes} (htodo : ∀ f ∈ todo, WellFormed isResponse f)
    {piece : Bytes} (hpiece : piece <+: todo.flatten) :
    ∃ whole rest p, todo = whole ++ rest ∧ piece = whole.flatten ++ p ∧
      (p = [] ∨ ∃ f rest', rest = f :: rest' ∧ PartOf isResponse p f) := by
  induction todo generalizing piece with
  | nil => exact ⟨[], [], [], rfl, List.prefix_nil.mp hpiece, .inl rfl⟩
  | cons f todo ih =>
    obtain ⟨hf, htodo⟩ := List.forall_mem_cons.mp htodo
    rw [List.flatten_cons] at hpiece
    by_cases hlen : piece.length < f.length
    · have hp : piece <+: f :=
        List.prefix_of_prefix_length_le hpiece (List.prefix_append f _) (Nat.le_of_lt hlen)
      refine ⟨[], f :: todo, piece, rfl, rfl, ?_⟩
      by_cases hnil : piece = []
      · exact .inl hnil
      · refine .inr ⟨f, todo, rfl, hf, hp, ?_, hnil⟩
        rintro rfl
        exact Nat.lt_irrefl _ hlen
    · obtain ⟨piece', rfl⟩ : f <+: piece :=
        List.prefix_of_prefix_length_le (List.prefix_append f _) hpiece (Nat.le_of_not_lt hlen)
      obtain ⟨whole, rest, p, rfl, rfl, hp⟩ := ih htodo ((List.prefix_append_right_inj f).mp hpiece)
      exact ⟨f :: whole, rest, p, rfl, (List.append_assoc ..).symm, hp⟩

/-- Inside of a frame no frame ends. -/
theorem not_endsFrame_of_partOf {frames whole rest : List Bytes} {f p : Bytes}
    (hframes : frames = whole ++ f :: rest) (hp : PartOf isResponse p f) :
    ¬ EndsFrame frames (whole.flatten.length + p.length) := by
  rintro ⟨done, todo, hsplit, hlen⟩
  obtain ⟨-, hfront, hne, hnil⟩ := hp
  have hlt : p.length < f.length :=
    Nat.lt_of_le_of_ne hfront.length_le fun e => hne (hfront.eq_of_length e)
  have hpos : 0 < p.length := List.length_pos_of_ne_nil hnil
  rw [hframes] at hsplit
  obtain ⟨between, rfl, hrest⟩ | ⟨between, rfl, -⟩ := List.append_eq_append_iff.mp hsplit
  · rw [List.flatten_append, List.length_append] at hlen
    cases between with
    | nil =>
      rw [List.flatten_nil, List.length_nil] at hlen
      omega
    | cons f' between =>
      obtain ⟨rfl, -⟩ := List.cons.inj hrest
      rw [List.flatten_cons, List.length_append] at hlen
      omega
  · rw [List.flatten_append, List.length_append] at hlen
    omega

/-! ## Strict flushes -/

/-- The framings of frames, and no error. -/
def Delivers [DecidableEq κ] (k : κ) (emits : List (Emit κ ρ)) (frames : List Bytes) : Prop :=
  framedFor k emits = frames.map (fun f => ⟨aduOf f, f⟩) ∧ framingErrors emits = []

/-- A Serial layer with no custom function codes. -/
structure SerialPlain (app : RtuApplicationLayer) : Prop where
  serial : 0 < app.intervalMs
  custom : app.customFunctionCodes = fun _ => none

section Flush

variable [DecidableEq κ] {k : κ} {emits emits' : List (Emit κ ρ)} {frames frames' : List Bytes}

theorem Delivers.append (h : Delivers k emits frames) (h' : Delivers k emits' frames') :
    Delivers k (emits ++ emits') (frames ++ frames') := by
  constructor
  · rw [framedFor_append, h.1, h'.1, List.map_append]
  · rw [framingErrors_append, h.2, h'.2]
    rfl

theorem delivers_nil : Delivers k ([] : List (Emit κ ρ)) [] := ⟨rfl, rfl⟩

variable {app : RtuApplicationLayer} (happ : SerialPlain app) (response : ρ)

theorem SerialPlain.strict (h : SerialPlain app) : app.strict = true := decide_eq_true h.serial

include happ in
/-- A flush cuts off the whole frames in front, and goes on behind them. -/
theorem flush_whole (t15 : Bool) {whole : List Bytes}
    (hwhole : ∀ f ∈ whole, WellFormed app.isResponse f) (p : Bytes) :
    ∃ emits : List (Emit κ ρ), Delivers k emits whole ∧
      flush app response k app.strict t15 (whole.flatten ++ p) =
        ((flush app response k app.strict t15 p).1,
          emits ++ (flush app response k app.strict t15 p).2) := by
  induction whole with
  | nil => exact ⟨[], delivers_nil, rfl⟩
  | cons f whole ih =>
    obtain ⟨hf, hwhole⟩ := List.forall_mem_cons.mp hwhole
    obtain ⟨emits, hdelivers, hflush⟩ := ih hwhole
    have hne : f ++ (whole.flatten ++ p) ≠ [] := fun e =>
      absurd hf.min (by rw [(List.append_eq_nil_iff.mp e).1]; decide)
    refine ⟨.framing (framingOf response k f) :: emits, ?_, ?_⟩
    · have hone : Delivers k [Emit.framing (framingOf response k f)] [f] := by
        refine ⟨?_, rfl⟩
        simp only [framedFor, List.filterMap_cons, Emit.framedFor, framingOf, Framing.framed,
          ↓reduceIte, List.filterMap_nil, List.map_cons, List.map_nil]
      exact hone.append hdelivers
    · rw [List.flatten_cons, List.append_assoc, flush_eq _ _ _ _ _ hne, happ.custom, tryExtract_whole hf]
      simp only [Nat.zero_add, List.drop_zero, List.drop_left, List.take_left, hflush, List.cons_append]

omit [DecidableEq κ] in
include happ in
/-- A strict flush reports what it finds of a frame that is still to come. -/
theorem flush_part (t15 : Bool) {p f : Bytes} (hp : PartOf app.isResponse p f) :
    framingErrors (flush app response k app.strict t15 p).2 ≠ [] := by
  obtain ⟨hf, hfront, hne, hnil⟩ := hp
  have hlt : p.length < 256 :=
    Nat.lt_of_lt_of_le (Nat.lt_of_le_of_ne hfront.length_le fun e => hne (hfront.eq_of_length e))
      hf.max
  rw [flush_eq _ _ _ _ _ hnil, happ.custom, tryExtract_part hf hfront hne]
  simp only [maxFrameLength, ge_iff_le, Nat.not_le.mpr hlt, ↓reduceIte, happ.strict, Bool.true_or]
  exact List.cons_ne_nil _ _

include happ in
/-- A flush of the front of the stream: all of it is delivered when it ends with a frame, and
otherwise something is reported. -/
theorem flush_piece (t15 : Bool) {done todo : List Bytes} (hsplit : frames = done ++ todo)
    (hframes : ∀ f ∈ frames, WellFormed app.isResponse f) {piece : Bytes}
    (hpiece : piece <+: todo.flatten) :
    (EndsFrame frames (done.flatten.length + piece.length) → ∃ whole todo', todo = whole ++ todo' ∧
      piece = whole.flatten ∧ (flush app response k app.strict t15 piece).1.1 = [] ∧
        Delivers k (flush app response k app.strict t15 piece).2 whole) ∧
      (¬ EndsFrame frames (done.flatten.length + piece.length) →
        framingErrors (flush app response k app.strict t15 piece).2 ≠ []) := by
  have htodo : ∀ f ∈ todo, WellFormed app.isResponse f := fun f hf =>
    hframes f (hsplit ▸ List.mem_append_right _ hf)
  obtain ⟨whole, rest, p, rfl, rfl, hp⟩ := exists_whole_of_prefix htodo hpiece
  obtain ⟨emits, hdelivers, hflush⟩ := flush_whole (k := k) happ response t15
    (fun f hf => htodo f (List.mem_append_left _ hf)) p
  rw [hflush, List.length_append, ← Nat.add_assoc, ← List.length_append, ← List.flatten_append]
  obtain rfl | ⟨f, rest', rfl, hpart⟩ := hp
  · have hnil : flush app response k app.strict t15 ([] : Bytes) = (([], t15), []) := rfl
    rw [hnil, List.append_nil, List.append_nil]
    refine ⟨fun _ => ⟨whole, rest, rfl, rfl, rfl, hdelivers⟩, ?_⟩
    intro hnot
    exact absurd ⟨done ++ whole, rest, by rw [hsplit, List.append_assoc], rfl⟩ hnot
  · have hinside : ¬ EndsFrame frames ((done ++ whole).flatten.length + p.length) :=
      not_endsFrame_of_partOf (by rw [hsplit, List.append_assoc]) hpart
    refine ⟨fun hends => absurd hends hinside, fun _ => ?_⟩
    rw [framingErrors_append, hdelivers.2, List.nil_append]
    exact flush_part happ response t15 hpart

end Flush

/-! ## The pool -/

/-- An unmarked pool without timers that holds these bytes at its front. -/
structure Holds (b : RtuBuffer) (bytes : Bytes) : Prop where
  wf : b.WF
  front : b.start = 0
  unmarked : b.t15Expired = false
  noTimers : b.timer = none ∧ b.interCharTimer = none
  bytes : b.asSlice = bytes

theorem holds_new : Holds .new [] := ⟨RtuBuffer.wf_new, rfl, rfl, ⟨rfl, rfl⟩, rfl⟩

/-- The pool of an entry, its timers left out. -/
def untimed (entry : Option RtuBuffer) : RtuBuffer :=
  { poolOf entry with timer := none, interCharTimer := none }

section Pool

variable {b : RtuBuffer} {bytes data : Bytes}

theorem Holds.length (h : Holds b bytes) : bytes.length = b.end_ := by
  rw [← h.bytes, h.wf.length_asSlice, RtuBuffer.len, h.front, Nat.sub_zero]

theorem Holds.available (h : Holds b bytes) : b.available = poolSize - bytes.length := by
  rw [h.wf.available_eq, h.length]

theorem Holds.extend (h : Holds b bytes) (data : Bytes) :
    Holds (b.extendFromSlice data).1 (bytes ++ data.take (poolSize - bytes.length)) ∧
      (b.extendFromSlice data).2 = min data.length (poolSize - bytes.length) := by
  obtain ⟨hwf, hslice⟩ := h.wf.extendFromSlice data
  have hcount : (b.extendFromSlice data).2 = min data.length (poolSize - bytes.length) := by
    rw [← h.available]
    rfl
  refine ⟨⟨hwf, h.front, h.unmarked, h.noTimers, ?_⟩, hcount⟩
  rw [hslice, hcount, h.bytes]
  by_cases hle : data.length ≤ poolSize - bytes.length
  · rw [Nat.min_eq_left hle, List.take_length, List.take_of_length_le hle]
  · rw [Nat.min_eq_right (Nat.le_of_not_le hle)]

variable (app : RtuApplicationLayer) (response : ρ) (k : κ)

/-- One turn of the copy loop that copies. -/
theorem consume_copies (h : Holds b bytes) (hdata : data ≠ []) (hroom : bytes.length < poolSize)
    (fuel : Nat) :
    app.consume response k (fuel + 1) b data =
      app.consume response k fuel (b.extendFromSlice data).1 (data.drop (poolSize - bytes.length)) := by
  obtain ⟨-, hcount⟩ := h.extend data
  have hpos : 0 < data.length := List.length_pos_of_ne_nil hdata
  have hsome : (b.extendFromSlice data).2 ≠ 0 := by omega
  have hdrop : data.drop (b.extendFromSlice data).2 = data.drop (poolSize - bytes.length) := by
    rw [hcount]
    by_cases hle : data.length ≤ poolSize - bytes.length
    · rw [Nat.min_eq_left hle, List.drop_length, List.drop_eq_nil_of_le hle]
    · rw [Nat.min_eq_right (Nat.le_of_not_le hle)]
  rw [consume_piece app response k hdata hsome, hdrop]

/-- A chunk that the pool has room for is copied. -/
theorem consume_fits (h : Holds b bytes) {fuel : Nat} (hfuel : 2 * data.length + 1 ≤ fuel)
    (hroom : bytes.length + data.length ≤ poolSize) :
    (app.consume response k fuel b data).2 = [] ∧
      Holds (app.consume response k fuel b data).1 (bytes ++ data) := by
  by_cases hdata : data = []
  · rw [hdata, consume_nil, List.append_nil]
    exact ⟨rfl, h⟩
  · have hpos : 0 < data.length := List.length_pos_of_ne_nil hdata
    obtain ⟨fuel, rfl⟩ : ∃ n, fuel = n + 1 := ⟨fuel - 1, by omega⟩
    obtain ⟨hextended, -⟩ := h.extend data
    rw [List.take_of_length_le (by omega)] at hextended
    rw [consume_copies app response k h hdata (by omega), List.drop_eq_nil_of_le (by omega), consume_nil]
    exact ⟨rfl, hextended⟩

/-- A full pool holds `poolSize` bytes. -/
theorem length_filled {bytes data : Bytes} (h : poolSize < bytes.length + data.length) :
    ((bytes ++ data).take poolSize).length = poolSize := by
  rw [List.length_take, List.length_append]
  omega

/-- What a pool does not take of a chunk when it is full. -/
theorem append_eq_filled {bytes : Bytes} (h : bytes.length < poolSize) (data : Bytes) :
    bytes ++ data = (bytes ++ data).take poolSize ++ data.drop (poolSize - bytes.length) := by
  conv_lhs => rw [← List.take_append_drop poolSize (bytes ++ data)]
  rw [List.drop_append, List.drop_eq_nil_of_le (Nat.le_of_lt h), List.nil_append]

/-- A chunk that the pool has no room for fills it, and the pool is flushed. -/
theorem consume_over (h : Holds b bytes) (hshort : bytes.length < poolSize) (fuel : Nat)
    (hover : poolSize < bytes.length + data.length) :
    let flushed := flush app response k app.strict false ((bytes ++ data).take poolSize)
    (flushed.1.1 = [] → app.consume response k (fuel + 2) b data =
      ((app.consume response k fuel .new (data.drop (poolSize - bytes.length))).1,
        flushed.2 ++ (app.consume response k fuel .new (data.drop (poolSize - bytes.length))).2)) ∧
      (framingErrors flushed.2 ≠ [] →
        framingErrors (app.consume response k (fuel + 2) b data).2 ≠ []) := by
  intro flushed
  have hdata : data ≠ [] := by
    rintro rfl
    rw [List.length_nil] at hover
    omega
  obtain ⟨hfull, -⟩ := h.extend data
  have hpiece : bytes ++ data.take (poolSize - bytes.length) = (bytes ++ data).take poolSize := by
    rw [List.take_append, List.take_of_length_le (Nat.le_of_lt hshort)]
  rw [hpiece] at hfull
  have hlen := length_filled hover
  -- the next turn finds the pool full
  have hnone :
      ((b.extendFromSlice data).1.extendFromSlice (data.drop (poolSize - bytes.length))).2 = 0 := by
    obtain ⟨-, hcount⟩ := hfull.extend (data.drop (poolSize - bytes.length))
    rw [hcount, hlen]
    omega
  have hrest : data.drop (poolSize - bytes.length) ≠ [] := by
    intro hnil
    have hzero := congrArg List.length hnil
    rw [List.length_drop, List.length_nil] at hzero
    omega
  obtain ⟨-, -, hslice, -, hleft, hemits⟩ := flushPool_simulates app response k app.strict hfull.wf
  rw [hfull.unmarked, hfull.bytes] at hslice hleft hemits
  have hturn : app.consume response k (fuel + 2) b data =
      app.consume response k (fuel + 1) (b.extendFromSlice data).1
        (data.drop (poolSize - bytes.length)) :=
    consume_copies app response k h hdata hshort (fuel + 1)
  rw [hturn, consume_full app response k hfull.wf hrest hnone]
  constructor
  · intro hclean
    rw [hleft hclean, hemits]
    rfl
  · intro herror
    rw [framingErrors_append, hemits]
    exact fun hnil => herror (List.append_eq_nil_iff.mp hnil).1

end Pool

/-! ## The flushes of a burst -/

/-- Where the pool is flushed because it is full, when it starts at `position` and takes in `total`
bytes. -/
def poolFlushes (position total : Nat) : List Nat :=
  (List.range ((total - 1) / poolSize)).map fun i => position + (i + 1) * poolSize

/-- Where the pool is flushed for its size: `position` is where it starts and `pending` what it holds
before chunks of these lengths arrive. A full pool is flushed before more is copied, and a chunk that
leaves 256 bytes or more is followed by a flush. -/
def flushPositions : Nat → Nat → List Nat → List Nat
  | _, _, [] => []
  | position, pending, length :: lengths =>
    let total := pending + length
    let full := (total - 1) / poolSize
    let rest := total - full * poolSize
    if rest ≥ maxFrameLength then
      poolFlushes position total ++ (position + total) :: flushPositions (position + total) 0 lengths
    else poolFlushes position total ++ flushPositions (position + full * poolSize) rest lengths

/-- A pool that is filled leaves one fewer to fill. -/
theorem fullPools_of_lt {total : Nat} (h : poolSize < total) :
    (total - 1) / poolSize = (total - poolSize - 1) / poolSize + 1 := by
  rw [show total - 1 = total - poolSize - 1 + poolSize by omega,
    Nat.add_div_right _ (by decide : 0 < poolSize)]

theorem poolFlushes_of_lt {position total : Nat} (h : poolSize < total) :
    poolFlushes position total =
      (position + poolSize) :: poolFlushes (position + poolSize) (total - poolSize) := by
  rw [poolFlushes, poolFlushes, fullPools_of_lt h, List.range_succ_eq_map, List.map_cons,
    List.map_map, Nat.zero_add, Nat.one_mul]
  refine congrArg _ (List.map_congr_left fun i _ => ?_)
  show position + (i + 1 + 1) * poolSize = position + poolSize + (i + 1) * poolSize
  rw [Nat.succ_mul (i + 1)]
  omega

section Burst

variable [DecidableEq κ] {app : RtuApplicationLayer} (happ : SerialPlain app) {frames : List Bytes}
  (hframes : ∀ f ∈ frames, WellFormed app.isResponse f) (k : κ) (response : ρ)

/-- A pool that starts at the end of a frame and takes in what follows. -/
structure Filling (frames : List Bytes) (b : RtuBuffer) (pending data later : Bytes)
    (done todo : List Bytes) : Prop where
  split : frames = done ++ todo
  holds : Holds b pending
  short : pending.length < poolSize
  stream : todo.flatten = pending ++ data ++ later

/-- A full pool of whole frames is followed by a fresh one. -/
theorem Filling.next {b : RtuBuffer} {pending data later : Bytes} {done whole todo : List Bytes}
    (h : Filling frames b pending data later done (whole ++ todo))
    (hwhole : (pending ++ data).take poolSize = whole.flatten) :
    Filling frames .new [] (data.drop (poolSize - pending.length)) later (done ++ whole) todo := by
  refine ⟨by rw [h.split, List.append_assoc], holds_new, by decide, ?_⟩
  have hstream := h.stream
  rw [List.flatten_append, append_eq_filled h.short data, ← hwhole, List.append_assoc] at hstream
  exact List.append_cancel_left hstream

include happ hframes in
/-- The copy loop of a chunk. -/
theorem consume_burst : ∀ (full : Nat) {fuel : Nat} {b : RtuBuffer} {pending data later : Bytes}
    {done todo : List Bytes}, Filling frames b pending data later done todo →
    2 * data.length + 1 ≤ fuel → full = (pending.length + data.length - 1) / poolSize →
    ((∀ q ∈ poolFlushes done.flatten.length (pending.length + data.length), EndsFrame frames q) →
      ∃ whole todo' rest, todo = whole ++ todo' ∧ pending ++ data = whole.flatten ++ rest ∧
        whole.flatten.length = full * poolSize ∧
        Delivers k (app.consume response k fuel b data).2 whole ∧
        Holds (app.consume response k fuel b data).1 rest) ∧
      ((¬ ∀ q ∈ poolFlushes done.flatten.length (pending.length + data.length), EndsFrame frames q) →
        framingErrors (app.consume response k fuel b data).2 ≠ [])
  | 0, fuel, b, pending, data, later, done, todo, h, hfuel, hfull => by
    have hroom : pending.length + data.length ≤ poolSize := by
      by_contra hover
      have hpos : 0 < (pending.length + data.length - 1) / poolSize :=
        Nat.div_pos (by omega) (by decide)
      omega
    have hnone : poolFlushes done.flatten.length (pending.length + data.length) = [] := by
      rw [poolFlushes, ← hfull]
      rfl
    obtain ⟨hsilent, hholds⟩ := consume_fits app response k h.holds hfuel hroom
    rw [hnone, hsilent]
    refine ⟨fun _ => ⟨[], todo, pending ++ data, rfl, rfl, (Nat.zero_mul _).symm, delivers_nil,
      hholds⟩, ?_⟩
    intro hnot
    exact absurd (fun q hq => by cases hq) hnot
  | full + 1, fuel, b, pending, data, later, done, todo, h, hfuel, hfull => by
    have hshort := h.short
    have hover : poolSize < pending.length + data.length := by
      have hle := Nat.div_mul_le_self (pending.length + data.length - 1) poolSize
      rw [← hfull, Nat.succ_mul] at hle
      have hpos : 0 < poolSize := by decide
      omega
    obtain ⟨fuel, rfl⟩ : ∃ n, fuel = n + 2 := ⟨fuel - 2, by omega⟩
    have hpiece : (pending ++ data).take poolSize <+: todo.flatten :=
      (List.take_prefix _ _).trans (h.stream ▸ List.prefix_append _ _)
    have hlen := length_filled hover
    have hrest : (data.drop (poolSize - pending.length)).length =
        pending.length + data.length - poolSize := by
      rw [List.length_drop]
      omega
    have hcut := append_eq_filled hshort data
    obtain ⟨hclean, hdirty⟩ := consume_over app response k h.holds hshort fuel hover
    obtain ⟨hends, hinside⟩ := flush_piece (k := k) happ response false h.split hframes hpiece
    rw [hlen] at hends hinside
    rw [poolFlushes_of_lt hover, List.forall_mem_cons]
    by_cases hend : EndsFrame frames (done.flatten.length + poolSize)
    · obtain ⟨whole, todo', rfl, hwhole, hleft, hdelivers⟩ := hends hend
      have hposition : (done ++ whole).flatten.length = done.flatten.length + poolSize := by
        rw [List.flatten_append, List.length_append, ← hwhole, hlen]
      have hfuel' : 2 * (data.drop (poolSize - pending.length)).length + 1 ≤ fuel := by
        rw [hrest]
        omega
      have hfull' : full =
          (([] : Bytes).length + (data.drop (poolSize - pending.length)).length - 1) / poolSize := by
        rw [hrest, List.length_nil, Nat.zero_add]
        exact Nat.succ.inj (hfull.trans (fullPools_of_lt hover))
      obtain ⟨hrun, hstop⟩ := consume_burst full (h.next hwhole) hfuel' hfull'
      rw [hposition, List.length_nil, Nat.zero_add, hrest] at hrun hstop
      rw [hclean hleft]
      constructor
      · intro hall
        obtain ⟨whole', todo'', rest, rfl, hdata, hcount, hdelivers', hholds⟩ := hrun hall.2
        refine ⟨whole ++ whole', todo'', rest, (List.append_assoc ..).symm, ?_, ?_,
          hdelivers.append hdelivers', hholds⟩
        · rw [List.nil_append] at hdata
          rw [hcut, hdata, hwhole, List.flatten_append, List.append_assoc]
        · rw [List.flatten_append, List.length_append, hcount, ← hwhole, hlen, Nat.succ_mul,
            Nat.add_comm]
      · intro hnot
        rw [framingErrors_append]
        intro hnil
        exact hstop (fun hall => hnot ⟨hend, hall⟩) (List.append_eq_nil_iff.mp hnil).2
    · refine ⟨fun hall => absurd hall.1 hend, fun _ => hdirty (hinside hend)⟩

/-! ## A chunk -/

/-- Where a chunk flushes the pool. -/
def chunkFlushes (position total : Nat) : List Nat :=
  if total - (total - 1) / poolSize * poolSize ≥ maxFrameLength then
    poolFlushes position total ++ [position + total]
  else poolFlushes position total

/-- What a chunk leads to: the timers are armed for a pool that holds less than 256 bytes, or the
entry is gone. -/
inductive Chunked (app : RtuApplicationLayer) (k : κ) (entry : Option RtuBuffer)
    (event : DataEvent κ ρ) (whole : List Bytes) (rest : Bytes) : Prop
  | waiting {b : RtuBuffer} (harms : app.arms entry event = true)
    (hentry : (app.processEntry entry event).1 = some b) (hholds : Holds b rest)
    (hshort : rest.length < maxFrameLength)
    (hcount : whole.flatten.length =
      (whole.flatten.length + rest.length - 1) / poolSize * poolSize)
  | flushed (harms : app.arms entry event = false)
    (hentry : (app.processEntry entry event).1 = none) (hrest : rest = [])
    (hover : whole.flatten.length - (whole.flatten.length - 1) / poolSize * poolSize ≥ maxFrameLength)

section Chunk

variable {entry : Option RtuBuffer} {event : DataEvent κ ρ}

omit [DecidableEq κ] in
/-- What an unmarked pool receives is copied. -/
theorem receive_unmarked (h : (untimed entry).t15Expired = false) : app.receive entry event =
    app.consume event.response event.connection (2 * event.data.length + 1)
      { untimed entry with t15Expired := false } event.data := by
  have hunmarked : (entry.getD .new).t15Expired = false := h
  simp only [RtuApplicationLayer.receive, hunmarked, Bool.false_and, Bool.false_eq_true, ↓reduceIte]
  rfl

omit [DecidableEq κ] in
/-- An error that is found while a chunk is copied is reported. -/
theorem errors_processEntry (h : framingErrors (app.receive entry event).2 ≠ []) :
    framingErrors (app.processEntry entry event).2 ≠ [] := by
  simp only [RtuApplicationLayer.processEntry]
  split
  · rw [framingErrors_append]
    exact fun hnil => h (List.append_eq_nil_iff.mp hnil).1
  · exact h

/-- A chunk that was copied and left `rest`: what was delivered on the way, and the pool. -/
structure Copied (app : RtuApplicationLayer) (entry : Option RtuBuffer) (event : DataEvent κ ρ)
    (pending : Bytes) (whole : List Bytes) (rest : Bytes) : Prop where
  data : pending ++ event.data = whole.flatten ++ rest
  count : whole.flatten.length = (pending.length + event.data.length - 1) / poolSize * poolSize
  delivers : Delivers event.connection (app.receive entry event).2 whole
  holds : Holds (app.receive entry event).1 rest

variable {pending rest : Bytes} {whole : List Bytes}

theorem Copied.total (h : Copied app entry event pending whole rest) :
    pending.length + event.data.length = whole.flatten.length + rest.length := by
  rw [← List.length_append, h.data, List.length_append]

theorem Copied.len (h : Copied app entry event pending whole rest) :
    (app.receive entry event).1.len = rest.length := by
  rw [← h.holds.wf.length_asSlice, h.holds.bytes]

theorem Copied.left (h : Copied app entry event pending whole rest) :
    pending.length + event.data.length -
      (pending.length + event.data.length - 1) / poolSize * poolSize = rest.length := by
  rw [← h.count, h.total, Nat.add_sub_cancel_left]

include happ hframes in
/-- The flush after a chunk that leaves 256 bytes or more: all of it is delivered when it ends with a
frame, and otherwise an error is reported. -/
theorem Copied.flush (h : Copied app entry event pending whole rest)
    (hbig : rest.length ≥ maxFrameLength) {done todo : List Bytes} {later : Bytes}
    (hsplit : frames = done ++ (whole ++ todo))
    (hstream : (whole ++ todo).flatten = pending ++ event.data ++ later) :
    (EndsFrame frames (done.flatten.length + (pending.length + event.data.length)) →
      ∃ whole' todo', todo = whole' ++ todo' ∧ rest = whole'.flatten ∧
        Delivers event.connection (app.processEntry entry event).2 (whole ++ whole') ∧
        Chunked app event.connection entry event (whole ++ whole') []) ∧
      (¬ EndsFrame frames (done.flatten.length + (pending.length + event.data.length)) →
        framingErrors (app.processEntry entry event).2 ≠ []) := by
  have hpiece : rest <+: todo.flatten := by
    rw [List.flatten_append, h.data, List.append_assoc] at hstream
    rw [List.append_cancel_left hstream]
    exact List.prefix_append _ _
  obtain ⟨hends, hinside⟩ := flush_piece (k := event.connection) happ event.response false
    (show frames = (done ++ whole) ++ todo by rw [hsplit, List.append_assoc]) hframes hpiece
  obtain ⟨-, -, hslice, -, hnone, hemits⟩ := flushPool_simulates app event.response
    event.connection app.strict h.holds.wf
  rw [h.holds.unmarked, h.holds.bytes] at hslice hnone hemits
  have hposition : (done ++ whole).flatten.length + rest.length =
      done.flatten.length + (pending.length + event.data.length) := by
    rw [List.flatten_append, List.length_append, h.total, Nat.add_assoc]
  have harms : ¬ app.arms entry event = true := by
    rw [arms_iff, h.len]
    exact fun harms => Nat.not_lt.mpr hbig harms.2
  have hflushed := processEntry_of_not_arms app harms
  rw [hposition] at hends hinside
  rw [hflushed, framingErrors_append, h.delivers.2, List.nil_append, hemits]
  constructor
  · intro hend
    obtain ⟨whole', todo', rfl, hrest, hclean, hdelivers⟩ := hends hend
    refine ⟨whole', todo', rfl, hrest, h.delivers.append hdelivers,
      .flushed (Bool.eq_false_iff.mpr harms) ?_ rfl ?_⟩
    · rw [hflushed]
      exact hnone hclean
    · rw [List.flatten_append, List.length_append, ← hrest, ← h.total, h.left]
      exact hbig
  · exact hinside

include happ hframes in
/-- A chunk of a burst. -/
theorem processEntry_burst (hk : event.connection = k) {later : Bytes} {done todo : List Bytes}
    (h : Filling frames (untimed entry) pending event.data later done todo) :
    ((∀ q ∈ chunkFlushes done.flatten.length (pending.length + event.data.length),
        EndsFrame frames q) →
      ∃ whole todo' rest, todo = whole ++ todo' ∧ pending ++ event.data = whole.flatten ++ rest ∧
        Delivers k (app.processEntry entry event).2 whole ∧ Chunked app k entry event whole rest) ∧
      ((¬ ∀ q ∈ chunkFlushes done.flatten.length (pending.length + event.data.length),
        EndsFrame frames q) → framingErrors (app.processEntry entry event).2 ≠ []) := by
  subst hk
  let ready : RtuBuffer := { untimed entry with t15Expired := false }
  have hready : Filling frames ready pending event.data later done todo :=
    ⟨h.split, ⟨⟨h.holds.wf.pool, h.holds.wf.le, h.holds.wf.bound⟩, h.holds.front, rfl, ⟨rfl, rfl⟩,
      h.holds.bytes⟩, h.short, h.stream⟩
  obtain ⟨hrun, hstop⟩ := consume_burst happ hframes event.connection event.response _ hready
    (Nat.le_refl _) rfl
  rw [← receive_unmarked h.holds.unmarked] at hrun hstop
  by_cases hpool : ∀ q ∈ poolFlushes done.flatten.length (pending.length + event.data.length),
      EndsFrame frames q
  · obtain ⟨whole, todo', rest, rfl, hdata, hcount, hdelivers, hholds⟩ := hrun hpool
    have hcopied : Copied app entry event pending whole rest := ⟨hdata, hcount, hdelivers, hholds⟩
    rw [chunkFlushes, hcopied.left]
    by_cases hbig : rest.length ≥ maxFrameLength
    · rw [if_pos hbig, List.forall_mem_append, List.forall_mem_singleton, and_iff_right hpool]
      obtain ⟨hends, hinside⟩ := hcopied.flush happ hframes hbig h.split h.stream
      refine ⟨?_, hinside⟩
      intro hend
      obtain ⟨whole', todo'', rfl, hrest, hdelivers', hchunked⟩ := hends hend
      refine ⟨whole ++ whole', todo'', [], (List.append_assoc ..).symm, ?_, hdelivers', hchunked⟩
      rw [hdata, List.flatten_append, hrest, List.append_nil]
    · have hsmall := Nat.lt_of_not_le hbig
      have harms : app.arms entry event = true := by
        rw [arms_iff, hcopied.len]
        exact ⟨happ.serial, hsmall⟩
      have hwaits := processEntry_of_arms app harms
      rw [if_neg hbig, hwaits]
      refine ⟨fun _ => ⟨whole, todo', rest, rfl, hdata, hdelivers, ?_⟩, fun hnot => absurd hpool hnot⟩
      refine .waiting harms (congrArg Prod.fst hwaits) hholds hsmall ?_
      rw [← hcopied.total]
      exact hcount
  · have hnot : ¬ ∀ q ∈ chunkFlushes done.flatten.length (pending.length + event.data.length),
        EndsFrame frames q := by
      intro hall
      refine hpool fun q hq => hall q ?_
      rw [chunkFlushes]
      split
      · exact List.mem_append_left _ hq
      · exact hq
    exact ⟨fun hall => absurd hall hnot, fun _ => errors_processEntry (hstop hpool)⟩

end Chunk

/-! ## A run -/

/-- What the layer holds of the connection between chunks, with a timer armed for it. -/
structure Waiting (s : State κ ρ) (k : κ) (pending : Bytes) : Prop where
  holds : Holds (untimed (s.buffers k)) pending
  short : pending.length < maxFrameLength
  armed : ∀ b, s.buffers k = some b → ∃ n response, b.timer = some n ∧
    s.tasks n = some (.interFrame k response) ∧
      ∀ c, b.interCharTimer = some c → c ≠ n ∧ s.tasks c = some (.interChar k)

omit [DecidableEq κ] in
theorem waiting_init : Waiting ({} : State κ ρ) k [] :=
  ⟨holds_new, by decide, fun b hb => by cases hb⟩

omit [DecidableEq κ] in
theorem Holds.of_timers {b : RtuBuffer} {bytes : Bytes} (h : Holds b bytes) (timer char : Option Nat) :
    Holds (untimed (some { b with timer := timer, interCharTimer := char })) bytes :=
  ⟨⟨h.wf.pool, h.wf.le, h.wf.bound⟩, h.front, h.unmarked, ⟨rfl, rfl⟩, h.bytes⟩

/-- The timers of an entry that waits. -/
theorem armTimers_waiting (app : RtuApplicationLayer) {s : State κ ρ} {event : DataEvent κ ρ}
    {b : RtuBuffer} (hb : s.buffers event.connection = some b) {rest : Bytes} (hholds : Holds b rest)
    (hshort : rest.length < maxFrameLength) :
    Waiting (armTimers app s event) event.connection rest := by
  rw [armTimers_some app hb]
  dsimp only
  split
  · refine ⟨?_, hshort, ?_⟩
    · rw [buffers_setBuffer]
      exact hholds.of_timers _ _
    · intro b' hb'
      rw [buffers_setBuffer] at hb'
      cases hb'
      refine ⟨s.nextTask, event.response, rfl, ?_, ?_⟩
      · exact (Function.update_of_ne (Nat.ne_of_lt (Nat.lt_succ_self _)) ..).trans
          (Function.update_self ..)
      · intro c hc
        cases hc
        exact ⟨Nat.ne_of_gt (Nat.lt_succ_self _), Function.update_self ..⟩
  · refine ⟨?_, hshort, ?_⟩
    · rw [buffers_setBuffer]
      exact hholds.of_timers _ b.interCharTimer
    · intro b' hb'
      rw [buffers_setBuffer] at hb'
      cases hb'
      refine ⟨s.nextTask, event.response, rfl, Function.update_self .., ?_⟩
      intro c hc
      cases hholds.noTimers.2.symm.trans hc

include happ hframes in
/-- A data event of a burst. -/
theorem step_burst {s : State κ ρ} {event : DataEvent κ ρ} (hk : event.connection = k)
    {pending later : Bytes} {done todo : List Bytes} (hwaiting : Waiting s k pending)
    (hsplit : frames = done ++ todo) (hstream : todo.flatten = pending ++ event.data ++ later)
    (lengths : List Nat) :
    ((∀ q ∈ chunkFlushes done.flatten.length (pending.length + event.data.length),
        EndsFrame frames q) →
      ∃ whole todo' rest, todo = whole ++ todo' ∧ pending ++ event.data = whole.flatten ++ rest ∧
        Delivers k (processDataEvent app s event).2 whole ∧
        Waiting (processDataEvent app s event).1 k rest ∧
        flushPositions done.flatten.length pending.length (event.data.length :: lengths) =
          chunkFlushes done.flatten.length (pending.length + event.data.length) ++
            flushPositions (done ++ whole).flatten.length rest.length lengths) ∧
      ((¬ ∀ q ∈ chunkFlushes done.flatten.length (pending.length + event.data.length),
        EndsFrame frames q) → framingErrors (processDataEvent app s event).2 ≠ []) := by
  have hshort : pending.length < poolSize := Nat.lt_trans hwaiting.short (by decide)
  obtain ⟨hrun, hstop⟩ := processEntry_burst happ hframes k hk
    ⟨hsplit, hwaiting.holds, hshort, hstream⟩
  subst hk
  refine ⟨?_, hstop⟩
  intro hall
  obtain ⟨whole, todo', rest, htodo, hdata, hdelivers, hchunked⟩ := hrun hall
  refine ⟨whole, todo', rest, htodo, hdata, hdelivers, ?_, ?_⟩
  · cases hchunked with
    | @waiting b harms hentry hholds hshort' hcount =>
      simp only [processDataEvent, harms, ↓reduceIte]
      refine armTimers_waiting app ?_ hholds hshort'
      rw [hentry, buffers_setBuffer]
    | flushed harms hentry hrest hover =>
      simp only [processDataEvent, harms, Bool.false_eq_true, ↓reduceIte, hentry]
      rw [hrest]
      refine ⟨by rw [buffers_setBuffer]; exact holds_new, by decide, ?_⟩
      intro b hb
      rw [buffers_setBuffer] at hb
      cases hb
  · have htotal : pending.length + event.data.length = whole.flatten.length + rest.length := by
      rw [← List.length_append, hdata, List.length_append]
    rw [flushPositions, chunkFlushes, htotal, List.flatten_append, List.length_append]
    cases hchunked with
    | waiting harms hentry hholds hshort' hcount =>
      rw [← hcount, Nat.add_sub_cancel_left, if_neg (Nat.not_le.mpr hshort'),
        if_neg (Nat.not_le.mpr hshort')]
    | flushed harms hentry hrest hover =>
      rw [hrest, List.length_nil, Nat.add_zero, if_pos hover, if_pos hover, List.append_assoc]
      rfl

/-- The t3.5 expiry that follows the data events of a connection, and the t1.5 expiry before it if
`charFirst`: the timers armed for what the layer holds. -/
def silence (k : κ) (charFirst : Bool) (s : State κ ρ) : List (Input κ ρ) :=
  match s.buffers k with
  | some b => ((if charFirst then b.interCharTimer.toList else []) ++ b.timer.toList).map .timer
  | none => []

/-- The expiry of the t3.5 timer delivers what a flush of the waiting bytes delivers. -/
theorem timer_delivers (app : RtuApplicationLayer) {s : State κ ρ} {whole : List Bytes} {b : RtuBuffer}
    (hb : s.buffers k = some b) (hwf : b.WF) {n : Nat} {response : ρ}
    (hn : s.tasks n = some (.interFrame k response))
    (hflush : Delivers k (flush app response k app.strict b.t15Expired b.asSlice).2 whole) :
    Delivers k (step app s (.timer n)).2 whole := by
  obtain ⟨-, -, -, -, -, hemits⟩ := flushPool_simulates app response k app.strict hwf
  have hstep : (step app s (.timer n)).2 = (app.flushPool response k app.strict (some b)).2 := by
    have hbuffers := congrFun (buffers_abort s (some n)) k
    rw [step_timer app hn]
    simp only [runTimer, hbuffers, hb]
  rwa [hstep, hemits]

/-- After the silence what waits has been flushed, with the t1.5 mark or without. -/
theorem silence_delivers (app : RtuApplicationLayer) {s : State κ ρ} {pending : Bytes}
    {whole : List Bytes} (hwaiting : Waiting s k pending) (hnil : pending = [] → whole = [])
    (hflush : ∀ (response : ρ) t15, Delivers k (flush app response k app.strict t15 pending).2 whole)
    (charFirst : Bool) : Delivers k (feedAll (step app) s (silence k charFirst s)).2 whole := by
  have hholds := hwaiting.holds
  cases hb : s.buffers k with
  | none =>
    rw [hb] at hholds
    have hempty : pending = [] := hholds.bytes.symm
    simp only [silence, hb, hnil hempty]
    exact delivers_nil
  | some b =>
    obtain ⟨n, response, htimer, hn, hchar⟩ := hwaiting.armed b hb
    rw [hb] at hholds
    have hwf : b.WF := ⟨hholds.wf.pool, hholds.wf.le, hholds.wf.bound⟩
    have hbytes : b.asSlice = pending := hholds.bytes
    have hlast : ∀ (t : State κ ρ) (b' : RtuBuffer), t.buffers k = some b' → b'.WF →
        b'.asSlice = pending → t.tasks n = some (.interFrame k response) →
          Delivers k (feedAll (step app) t [.timer n]).2 whole := by
      intro t b' hb' hwf' hbytes' hn'
      have hdelivers := timer_delivers k app hb' hwf' hn' (hbytes'.symm ▸ hflush response b'.t15Expired)
      rwa [feedAll_cons, feedAll_nil, List.append_nil]
    simp only [silence, hb, htimer, Option.toList_some, List.map_append, List.map_cons, List.map_nil]
    cases charFirst with
    | false => exact hlast s b hb hwf hbytes hn
    | true =>
      cases hc : b.interCharTimer with
      | none => exact hlast s b hb hwf hbytes hn
      | some c =>
        obtain ⟨hne, htask⟩ := hchar c hc
        have hstep : step app s (.timer c) = ((s.abort (some c)).setBuffer k
            (some { b with t15Expired := true }), []) := by
          have hbuffers := congrFun (buffers_abort s (some c)) k
          rw [step_timer app htask]
          simp only [runTimer, hbuffers, hb, Option.map_some]
        simp only [if_true, Option.toList_some, List.map_cons, List.map_nil, List.singleton_append]
        rw [feedAll_cons, hstep, List.nil_append]
        refine hlast _ { b with t15Expired := true } (buffers_setBuffer ..)
          ⟨hwf.pool, hwf.le, hwf.bound⟩ hbytes ?_
        exact (Function.update_of_ne hne.symm ..).trans hn

include happ hframes in
/-- After the silence of a burst everything that waits is delivered. -/
theorem silence_burst {s : State κ ρ} {whole : List Bytes} (hwhole : ∀ f ∈ whole, f ∈ frames)
    (hwaiting : Waiting s k whole.flatten) (charFirst : Bool) :
    Delivers k (feedAll (step app) s (silence k charFirst s)).2 whole := by
  refine silence_delivers k app hwaiting ?_ ?_ charFirst
  · intro hflat
    cases whole with
    | nil => rfl
    | cons f whole =>
      have hmin := (hframes f (hwhole f List.mem_cons_self)).min
      rw [List.flatten_cons, List.append_eq_nil_iff] at hflat
      rw [hflat.1] at hmin
      cases hmin
  · intro response t15
    obtain ⟨emits, hdelivers, hflush⟩ := flush_whole (k := k) happ response t15
      (fun f hf => hframes f (hwhole f hf)) []
    have hnone : (flush app response k app.strict t15 ([] : Bytes)).2 = ([] : List (Emit κ ρ)) := rfl
    rw [List.append_nil, hnone, List.append_nil] at hflush
    rw [hflush]
    exact hdelivers

include happ hframes in
/-- The data events of a burst. -/
theorem events_burst {events : List (DataEvent κ ρ)} (hk : ∀ event ∈ events, event.connection = k)
    {s : State κ ρ} {pending : Bytes} {done todo : List Bytes} (hwaiting : Waiting s k pending)
    (hsplit : frames = done ++ todo)
    (hstream : todo.flatten = pending ++ (events.map (·.data)).flatten) :
    let run := feedAll (step app) s (events.map fun event => .layer (.data event))
    ((∀ q ∈ flushPositions done.flatten.length pending.length (events.map (·.data.length)),
        EndsFrame frames q) →
      ∃ whole todo', todo = whole ++ todo' ∧ Delivers k run.2 whole ∧
        Waiting run.1 k todo'.flatten) ∧
      ((¬ ∀ q ∈ flushPositions done.flatten.length pending.length (events.map (·.data.length)),
        EndsFrame frames q) → framingErrors run.2 ≠ []) := by
  induction events generalizing s pending done todo with
  | nil =>
    rw [List.map_nil, List.flatten_nil, List.append_nil] at hstream
    rw [← hstream] at hwaiting
    refine ⟨fun _ => ⟨[], todo, rfl, delivers_nil, hwaiting⟩, ?_⟩
    intro hnot
    exact absurd (fun q hq => by cases hq) hnot
  | cons event events ih =>
    obtain ⟨hevent, hevents⟩ := List.forall_mem_cons.mp hk
    rw [List.map_cons, List.flatten_cons, ← List.append_assoc] at hstream
    obtain ⟨hrun, hstop⟩ := step_burst happ hframes k hevent hwaiting hsplit hstream
      (events.map (·.data.length))
    simp only [List.map_cons, feedAll_cons]
    by_cases hchunk : ∀ q ∈ chunkFlushes done.flatten.length (pending.length + event.data.length),
        EndsFrame frames q
    · obtain ⟨whole, todo', rest, rfl, hdata, hdelivers, hwaiting', hpositions⟩ := hrun hchunk
      have hstream' : todo'.flatten = rest ++ (events.map (·.data)).flatten := by
        rw [List.flatten_append, hdata, List.append_assoc] at hstream
        exact List.append_cancel_left hstream
      obtain ⟨hrest, hfail⟩ := ih hevents hwaiting' (hsplit.trans (List.append_assoc ..).symm) hstream'
      rw [hpositions, List.forall_mem_append, and_iff_right hchunk]
      constructor
      · intro hall
        obtain ⟨whole', todo'', rfl, hdelivers', hwaiting''⟩ := hrest hall
        exact ⟨whole ++ whole', todo'', (List.append_assoc ..).symm, hdelivers.append hdelivers',
          hwaiting''⟩
      · intro hnot
        rw [framingErrors_append]
        exact fun hnil => hfail hnot (List.append_eq_nil_iff.mp hnil).2
    · have herror := hstop hchunk
      have hpositions : ∃ later, flushPositions done.flatten.length pending.length
          (event.data.length :: events.map (·.data.length)) =
            chunkFlushes done.flatten.length (pending.length + event.data.length) ++ later := by
        rw [flushPositions, chunkFlushes]
        split
        · exact ⟨_, (List.append_assoc _ [_] _).symm⟩
        · exact ⟨_, rfl⟩
      obtain ⟨later, hpositions⟩ := hpositions
      rw [hpositions]
      constructor
      · intro hall
        exact absurd (List.forall_mem_append.mp hall).1 hchunk
      · intro _
        rw [framingErrors_append]
        exact fun hnil => herror (List.append_eq_nil_iff.mp hnil).1

end Burst

/-- **Exactly when a burst is delivered.** Frames that are well formed for the role of a Serial layer,
cut into data events of any sizes with no expiry in between, and then the t3.5 expiry (after the
t1.5 expiry, or not): all of them are delivered in order and no error is reported, if and only if
every flush that the sizes trigger comes at the end of a frame. -/
theorem burst_delivered_iff [DecidableEq κ] (role : ApplicationRole) (intervals : Nat × Nat)
    (hserial : 0 < intervals.1) (k : κ) (events : List (DataEvent κ ρ))
    (hk : ∀ event ∈ events, event.connection = k) (frames : List Bytes)
    (hframes : ∀ f ∈ frames, WellFormed (role == .master) f)
    (hcut : (events.map (·.data)).flatten = frames.flatten) (charFirst : Bool) :
    let app := RtuApplicationLayer.new .serial intervals (some role)
    let run := feedAll (step app) {} (events.map fun event => .layer (.data event))
    let emits := run.2 ++ (feedAll (step app) run.1 (silence k charFirst run.1)).2
    (framedFor k emits = frames.map (fun f => ⟨aduOf f, f⟩) ∧ framingErrors emits = []) ↔
      ∀ q ∈ flushPositions 0 0 (events.map (·.data.length)), EndsFrame frames q := by
  intro app run emits
  have happ : SerialPlain app := ⟨hserial, rfl⟩
  have hwell : ∀ f ∈ frames, WellFormed app.isResponse f := hframes
  obtain ⟨hrun, hstop⟩ := events_burst happ hwell k hk (waiting_init k)
    (show frames = [] ++ frames from rfl) hcut.symm
  constructor
  · rintro ⟨-, herrors⟩
    by_contra hnot
    rw [framingErrors_append] at herrors
    exact hstop hnot (List.append_eq_nil_iff.mp herrors).1
  · intro hall
    obtain ⟨whole, todo, rfl, hdelivers, hwaiting⟩ := hrun hall
    exact hdelivers.append (silence_burst happ hwell k
      (fun f hf => List.mem_append_right _ hf) hwaiting charFirst)

/-- An FC 6 request. -/
def writeFrame : Bytes := [1, 6, 0, 1, 0, 3, 152, 11]

theorem wellFormed_writeFrame : WellFormed false writeFrame := by
  constructor <;> decide +kernel

theorem length_writeFrames (n : Nat) : (List.replicate n writeFrame).flatten.length = n * 8 := by
  rw [List.length_flatten, List.map_replicate, List.sum_replicate_nat]
  rfl

/-- Thirty-four requests of 8 bytes each, cut in the first one and behind the thirty-third: the flush for
the size comes at the end of a request. -/
theorem burst_delivered_sizeFlush :
    let app := RtuApplicationLayer.new .serial (4, 2) (some .slave)
    let frames := List.replicate 34 writeFrame
    let run := feedAll (step app) {} ([⟨frames.flatten.take 3, (), ()⟩,
      ⟨(frames.flatten.drop 3).take 261, (), ()⟩, ⟨(frames.flatten.drop 3).drop 261, (), ()⟩].map
        fun event => .layer (.data event))
    let emits := run.2 ++ (feedAll (step app) run.1 (silence () true run.1)).2
    framedFor () emits = frames.map (fun f => ⟨aduOf f, f⟩) ∧ framingErrors emits = [] := by
  intro app frames run emits
  refine (burst_delivered_iff .slave (4, 2) (by decide) () _ (fun _ _ => rfl) frames ?_ ?_ true).mpr ?_
  · intro f hf
    rw [List.eq_of_mem_replicate hf]
    exact wellFormed_writeFrame
  · simp only [List.map_cons, List.map_nil, List.flatten_cons, List.flatten_nil, List.append_nil,
      List.take_append_drop]
  · have hflushes : ∀ q ∈ flushPositions 0 0 [3, 261, 8], q = 264 := by decide
    intro q hq
    simp only [List.map_cons, List.map_nil, List.length_take, List.length_drop, frames,
      length_writeFrames] at hq
    rw [hflushes q hq]
    exact ⟨List.replicate 33 writeFrame, [writeFrame], rfl, length_writeFrames 33⟩

/-- Thirty-three requests of 8 bytes each, of which 260 bytes arrive first: the flush for the size
finds half of a request, and a request is lost. -/
theorem sizeFlush_loses_request :
    let app := RtuApplicationLayer.new .serial (4, 2) (some .slave)
    let frames := List.replicate 33 writeFrame
    let run := feedAll (step app) {} ([⟨frames.flatten.take 260, (), ()⟩,
      ⟨frames.flatten.drop 260, (), ()⟩].map fun event => .layer (.data event))
    let emits := run.2 ++ (feedAll (step app) run.1 (silence () true run.1)).2
    ¬ (framedFor () emits = frames.map (fun f => ⟨aduOf f, f⟩) ∧ framingErrors emits = []) := by
  intro app frames run emits
  rintro ⟨-, herrors⟩
  have happ : SerialPlain app := ⟨by decide, rfl⟩
  have hwell : ∀ f ∈ frames, WellFormed app.isResponse f := by
    intro f hf
    rw [List.eq_of_mem_replicate hf]
    exact wellFormed_writeFrame
  let events : List (DataEvent Unit Unit) :=
    [⟨frames.flatten.take 260, (), ()⟩, ⟨frames.flatten.drop 260, (), ()⟩]
  have hk : ∀ event ∈ events, event.connection = () := fun _ _ => rfl
  have hcut : frames.flatten = [] ++ (events.map (·.data)).flatten := by
    simp only [events, List.map_cons, List.map_nil, List.flatten_cons, List.flatten_nil,
      List.append_nil, List.nil_append, List.take_append_drop]
  have hlengths : events.map (·.data.length) = [260, 4] := by
    simp only [events, List.map_cons, List.map_nil, List.length_take, List.length_drop, frames,
      length_writeFrames]
    rfl
  obtain ⟨-, hstop⟩ := events_burst happ hwell () hk (waiting_init ()) (List.nil_append frames).symm hcut
  rw [framingErrors_append] at herrors
  refine hstop ?_ (List.append_eq_nil_iff.mp herrors).1
  intro hall
  rw [hlengths] at hall
  obtain ⟨done, todo, hsplit, hlen⟩ := hall 260 (by decide)
  have hdone : done = List.replicate done.length writeFrame := by
    refine List.eq_replicate_of_mem fun f hf => ?_
    have hmem : f ∈ frames := hsplit ▸ List.mem_append_left todo hf
    exact List.eq_of_mem_replicate hmem
  rw [hdone, length_writeFrames] at hlen
  omega

end RsModbus.Rtu
