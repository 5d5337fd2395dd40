import RsModbus.Laws.RtuPool
import RsModbus.Library.Segments

/-!
# RTU framing fabricates nothing

`Rtu.framing_genuine`: whatever an RTU layer receives, over either transport, with any custom
predictors and however its timers fire, every framing it publishes is a whole frame with a valid CRC
that decodes to its data unit, and the frames of a connection are segments of the connection's
stream, in order.

The pool of a connection always holds the last bytes of its stream: a flush cuts frames off the
front or drops bytes there, and an error drops all of it.
-/

namespace RsModbus.Rtu

open Library

variable {κ ρ : Type}

/-! ## Frames that are extracted -/

/-- A framing carries a whole frame of a valid CRC, and the data unit the frame decodes to. -/
structure Genuine (f : Framing κ ρ) : Prop where
  min : 4 ≤ f.raw.length
  max : f.raw.length ≤ 256
  crc : crcMatches f.raw f.raw.length = true
  decoded : decode f.raw = .ok ⟨f.adu, f.raw⟩

theorem decode_of_crcMatches {frame : Bytes} (hmin : 4 ≤ frame.length)
    (hcrc : crcMatches frame frame.length = true) : decode frame = .ok ⟨aduOf frame, frame⟩ := by
  unfold crcMatches at hcrc
  split at hcrc
  · cases hcrc
  · rw [decode, decodeInner, if_neg (Nat.not_lt.mpr hmin),
      if_neg (not_not_intro (beq_iff_eq.mp hcrc))]
    rfl

/-- A CRC that matches at the front of a buffer matches in the frame alone. -/
theorem crcMatches_take {buffer : Bytes} {n : Nat} (hmin : 2 ≤ n) (hn : n ≤ buffer.length)
    (hcrc : crcMatches buffer n = true) : crcMatches (buffer.take n) n = true := by
  have hget : ∀ i, i < n → (buffer.take n).getD i 0 = buffer.getD i 0 := by
    intro i hi
    rw [List.getD_eq_getElem?_getD, List.getD_eq_getElem?_getD, List.getElem?_take_of_lt hi]
  unfold crcMatches at hcrc ⊢
  rw [hget _ (by omega), hget _ (by omega), List.take_take, Nat.min_eq_left (by omega),
    List.length_take, Nat.min_eq_left hn]
  split at hcrc
  · cases hcrc
  next hshort =>
    rw [if_neg]
    · exact hcrc
    · simp only [Bool.or_eq_true, decide_eq_true_eq, gt_iff_lt] at hshort ⊢
      omega

/-- The frame that is extracted from the front of a buffer is genuine. -/
theorem genuine_framingOf {buffer : Bytes} {isResponse : Bool}
    {customFcs : UInt8 → Option CustomFunctionCode} {skip n : Nat}
    (h : tryExtract buffer isResponse customFcs = .frame skip n) (response : ρ) (connection : κ) :
    Genuine (framingOf response connection (buffer.take n)) := by
  obtain ⟨-, hmin, hmax, hn, hcrc⟩ := tryExtract_frame h
  have hlen : (buffer.take n).length = n := by rw [List.length_take, Nat.min_eq_left hn]
  have hmatches : crcMatches (buffer.take n) (buffer.take n).length = true := by
    rw [hlen]
    exact crcMatches_take (by omega) hn hcrc
  exact ⟨hlen.symm ▸ hmin, hlen.symm ▸ hmax, hmatches, decode_of_crcMatches (hlen.symm ▸ hmin) hmatches⟩

/-! ## A flush -/

/-- The frame that an emission carries for connection `k`. -/
def rawFor [DecidableEq κ] (k : κ) (emit : Emit κ ρ) : Option Bytes :=
  (Emit.framedFor k emit).map (·.raw)

section Flush

variable [DecidableEq κ] (app : RtuApplicationLayer) (response : ρ) (connection : κ) (strict t15 : Bool)

theorem rawFor_framingOf (frame : Bytes) :
    rawFor connection (.framing (framingOf response connection frame)) = some frame := by
  simp only [rawFor, Emit.framedFor, framingOf, ↓reduceIte, Option.map_some, Framing.framed]

/-- A flush cuts frames off the front, and what it leaves is at the end. -/
theorem flushBytes_consumes : ∀ (fuel : Nat) (bytes : Bytes),
    Consumes bytes (flushBytes app response connection strict t15 fuel bytes).1.1
      ((flushBytes app response connection strict t15 fuel bytes).2.filterMap (rawFor connection))
  | 0, bytes => .refl bytes
  | fuel + 1, bytes => by
    have hdrop : Consumes bytes
        (flushBytes app response connection strict t15 fuel (bytes.drop 1)).1.1
        ((flushBytes app response connection strict t15 fuel (bytes.drop 1)).2.filterMap
          (rawFor connection)) := by
      have hrest := (flushBytes_consumes fuel (bytes.drop 1)).append_left (bytes.take 1)
      rwa [List.take_append_drop] at hrest
    simp only [flushBytes]
    split
    · exact .refl bytes
    · cases htry : tryExtract bytes app.isResponse app.customFunctionCodes with
      | frame skip n =>
        obtain ⟨rfl, -⟩ := tryExtract_frame htry
        simp only [Nat.zero_add, List.drop_zero, List.filterMap_cons, rawFor_framingOf]
        have hrest := (flushBytes_consumes fuel (bytes.drop n)).cons (bytes.take n)
        rwa [List.take_append_drop] at hrest
      | skip =>
        dsimp only
        split
        · exact .dropAll bytes
        · exact hdrop
      | insufficient =>
        dsimp only
        split
        · exact hdrop
        · split
          · exact .dropAll bytes
          · exact .refl bytes
      | invalid => exact .dropAll bytes

omit [DecidableEq κ] in
theorem flushBytes_genuine : ∀ (fuel : Nat) (bytes : Bytes) {f : Framing κ ρ},
    Emit.framing f ∈ (flushBytes app response connection strict t15 fuel bytes).2 → Genuine f
  | 0, _, _, h => nomatch h
  | fuel + 1, bytes, f, h => by
    simp only [flushBytes] at h
    split at h
    · cases h
    · cases htry : tryExtract bytes app.isResponse app.customFunctionCodes with
      | frame skip n =>
        obtain ⟨rfl, -⟩ := tryExtract_frame htry
        simp only [htry, List.mem_cons, Emit.framing.injEq, List.drop_zero] at h
        rcases h with rfl | h
        · exact genuine_framingOf htry response connection
        · exact flushBytes_genuine fuel _ h
      | skip =>
        simp only [htry] at h
        split at h
        · simp only [List.mem_singleton, reduceCtorEq] at h
        · exact flushBytes_genuine fuel _ h
      | insufficient =>
        simp only [htry] at h
        split at h
        · exact flushBytes_genuine fuel _ h
        · split at h
          · simp only [List.mem_singleton, reduceCtorEq] at h
          · cases h
      | invalid => simp only [htry, List.mem_singleton, reduceCtorEq] at h

end Flush

/-! ## One connection -/

section Entries

variable [DecidableEq κ] (app : RtuApplicationLayer)

/-- What an entry reads and emits: its pool held `held` and holds the end of it. -/
structure Handles (k : κ) (held : Bytes) (entry : Option RtuBuffer) (emits : List (Emit κ ρ)) :
    Prop where
  wf : (poolOf entry).WF
  consumes : Consumes held (poolOf entry).asSlice (emits.filterMap (rawFor k))
  genuine : ∀ f, Emit.framing f ∈ emits → Genuine f

theorem handles_flushPool (response : ρ) (connection : κ) (strict : Bool) {b : RtuBuffer} (h : b.WF) :
    Handles connection b.asSlice (app.flushPool response connection strict (some b)).1
      (app.flushPool response connection strict (some b)).2 := by
  obtain ⟨hwf, -, hslice, -, -, hemits⟩ := flushPool_simulates app response connection strict h
  rw [flush] at hslice hemits
  refine ⟨hwf, ?_, ?_⟩
  · rw [hslice, hemits]
    exact flushBytes_consumes app response connection strict _ _ _
  · intro f hf
    rw [hemits] at hf
    exact flushBytes_genuine app response connection strict _ _ _ hf

/-- The copy loop. -/
theorem handles_consume (response : ρ) (connection : κ) {b : RtuBuffer} (h : b.WF)
    (hmark : b.t15Expired = false) (data : Bytes) :
    (app.consume response connection (2 * data.length + 1) b data).1.t15Expired = false ∧
      Handles connection (b.asSlice ++ data)
        (some (app.consume response connection (2 * data.length + 1) b data).1)
        (app.consume response connection (2 * data.length + 1) b data).2 := by
  obtain ⟨reads, tail, hflat, hwf, hunmarked, hslice, hemits⟩ := consume_simulates app response
    connection (2 * data.length + 1) data h hmark (List.append_nil _).symm (by split <;> omega)
  have hread : ∀ (retained : Bytes) (read : ρ × Bytes), True → True ∧
      Consumes (retained ++ read.2) (feedSplit (splitter app connection) retained read).1
        ((feedSplit (splitter app connection) retained read).2.filterMap (rawFor connection)) :=
    fun _ (_, _) _ => ⟨trivial, flushBytes_consumes app _ connection app.strict false _ _⟩
  have hgenuine : ∀ (retained : Bytes) (read : ρ × Bytes), True → True ∧
      ∀ x ∈ (feedSplit (splitter app connection) retained read).2,
        ∀ f, x = Emit.framing f → Genuine f := by
    rintro retained ⟨response, bytes⟩ -
    refine ⟨trivial, ?_⟩
    rintro x hx f rfl
    exact flushBytes_genuine app response connection app.strict false _ _ hx
  have hrun : Consumes (b.asSlice ++ reads.flatMap Prod.snd) _ _ :=
    (feedAll_consumes hread reads trivial).2
  have htail : Consumes (b.asSlice ++ reads.flatMap Prod.snd ++ tail) _ _ := hrun.trans (.refl _)
  refine ⟨hunmarked, hwf, ?_, ?_⟩
  · rw [List.append_nil] at htail
    rw [hemits]
    have hflat' : b.asSlice ++ data = b.asSlice ++ reads.flatMap Prod.snd ++ tail := by
      rw [List.append_assoc, List.flatMap_def, hflat]
      rfl
    rw [hflat']
    exact hslice ▸ htail
  · intro f hf
    rw [hemits] at hf
    exact feedAll_outputs hgenuine reads trivial _ hf f rfl

/-- A data event up to its flush, when the bytes that wait are not expired. -/
theorem handles_receive_joined {entry : Option RtuBuffer} (h : (poolOf entry).WF)
    (event : DataEvent κ ρ)
    (hexpired : ((poolOf entry).t15Expired && !(poolOf entry).isEmpty) = false) :
    (app.receive entry event).1.t15Expired = false ∧
      Handles event.connection ((poolOf entry).asSlice ++ event.data) (some (app.receive entry event).1)
        (app.receive entry event).2 := by
  have hexpired' : ((entry.getD .new).t15Expired && !(entry.getD .new).isEmpty) = false := hexpired
  simp only [RtuApplicationLayer.receive, hexpired', Bool.false_eq_true, ↓reduceIte]
  exact handles_consume app event.response event.connection
    (b := { poolOf entry with t15Expired := false, timer := none, interCharTimer := none })
    ⟨h.pool, h.le, h.bound⟩ rfl event.data

/-- A data event up to its flush, when the bytes that wait are expired: they go. -/
theorem handles_receive_expired {entry : Option RtuBuffer} (h : (poolOf entry).WF)
    (event : DataEvent κ ρ)
    (hexpired : ((poolOf entry).t15Expired && !(poolOf entry).isEmpty) = true) :
    (app.receive entry event).1.t15Expired = false ∧
      Handles event.connection event.data (some (app.receive entry event).1)
        (app.receive entry event).2 := by
  have hexpired' : ((entry.getD .new).t15Expired && !(entry.getD .new).isEmpty) = true := hexpired
  simp only [RtuApplicationLayer.receive, hexpired', ↓reduceIte]
  obtain ⟨hunmarked, hhandles⟩ := handles_consume app event.response event.connection
    (b := { poolOf entry with
      start := 0, end_ := 0, t15Expired := false, timer := none, interCharTimer := none })
    ⟨h.pool, Nat.le_refl _, Nat.zero_le _⟩ rfl event.data
  refine ⟨hunmarked, hhandles.wf, hhandles.consumes, ?_⟩
  intro f hf
  rcases List.mem_cons.mp hf with heq | hf
  · cases heq
  · exact hhandles.genuine f hf

/-- A data event up to its flush. -/
theorem handles_receive {entry : Option RtuBuffer} (h : (poolOf entry).WF) (event : DataEvent κ ρ) :
    (app.receive entry event).1.t15Expired = false ∧
      Handles event.connection ((poolOf entry).asSlice ++ event.data) (some (app.receive entry event).1)
        (app.receive entry event).2 := by
  cases hexpired : (poolOf entry).t15Expired && !(poolOf entry).isEmpty with
  | false => exact handles_receive_joined app h event hexpired
  | true =>
    obtain ⟨hunmarked, hhandles⟩ := handles_receive_expired app h event hexpired
    exact ⟨hunmarked, hhandles.wf, hhandles.consumes.append_left _, hhandles.genuine⟩

/-- The flush of a data event. -/
theorem Handles.processEntry {entry : Option RtuBuffer} {event : DataEvent κ ρ} {held : Bytes}
    (hreceived : Handles event.connection held (some (app.receive entry event).1)
      (app.receive entry event).2) :
    Handles event.connection held (app.processEntry entry event).1 (app.processEntry entry event).2 := by
  unfold RtuApplicationLayer.processEntry
  dsimp only
  split
  · have hflushed := handles_flushPool app event.response event.connection app.strict hreceived.wf
    refine ⟨hflushed.wf, ?_, ?_⟩
    · rw [List.filterMap_append]
      have hboth : Consumes (held ++ []) _ _ :=
        hreceived.consumes.trans (by rw [List.append_nil]; exact hflushed.consumes)
      rwa [List.append_nil] at hboth
    · intro f hf
      exact (List.mem_append.mp hf).elim (hreceived.genuine f) (hflushed.genuine f)
  · exact hreceived

/-- A data event. -/
theorem handles_processEntry {entry : Option RtuBuffer} (h : (poolOf entry).WF)
    (event : DataEvent κ ρ) :
    Handles event.connection ((poolOf entry).asSlice ++ event.data) (app.processEntry entry event).1
      (app.processEntry entry event).2 :=
  Handles.processEntry app (handles_receive app h event).2

/-! ## The layer -/

/-- The bytes of an input for connection `k`. -/
def received (k : κ) : Input κ ρ → Bytes
  | .layer (.data event) => if event.connection = k then event.data else []
  | _ => []

/-- Every pool of the layer is well formed. -/
def Pools (s : State κ ρ) : Prop := ∀ k, (poolOf (s.buffers k)).WF

/-- What an input does to connection `k`. -/
def StepHandles (k : κ) (s : State κ ρ) (input : Input κ ρ) (result : State κ ρ × List (Emit κ ρ)) :
    Prop :=
  Handles k ((poolOf (s.buffers k)).asSlice ++ received k input) (result.1.buffers k) result.2

variable {app}

/-- An input for one connection. -/
theorem stepHandles_of_connection {s : State κ ρ} {input : Input κ ρ}
    {result : State κ ρ × List (Emit κ ρ)} {connection : κ}
    (hmine : Handles connection ((poolOf (s.buffers connection)).asSlice ++ received connection input)
      (result.1.buffers connection) result.2)
    (hread : ∀ k, k ≠ connection → received k input = [])
    (hother : ∀ k, k ≠ connection → (poolOf (result.1.buffers k)).WF ∧
      (poolOf (result.1.buffers k)).asSlice = (poolOf (s.buffers k)).asSlice)
    (hown : ∀ f, Emit.framing f ∈ result.2 → f.connection = connection) (k : κ) :
    StepHandles k s input result := by
  by_cases hk : k = connection
  · subst hk
    exact hmine
  · obtain ⟨hwf, hslice⟩ := hother k hk
    rw [StepHandles, hread k hk, List.append_nil]
    refine ⟨hwf, ?_, hmine.genuine⟩
    have hnone : result.2.filterMap (rawFor k) = [] := by
      apply List.filterMap_eq_nil_iff.mpr
      intro x hx
      cases x with
      | framing f =>
        have hne : ¬ f.connection = k := fun heq => hk (heq.symm.trans (hown f hx))
        simp only [rawFor, Emit.framedFor, if_neg hne, Option.map_none]
      | framingError e => rfl
    rw [hnone, hslice]
    exact .refl _

omit [DecidableEq κ] in
theorem buffers_abort (s : State κ ρ) (handle : Option Nat) : (s.abort handle).buffers = s.buffers := by
  cases handle <;> rfl

theorem buffers_setBuffer (s : State κ ρ) (connection : κ) (entry : Option RtuBuffer) :
    (s.setBuffer connection entry).buffers connection = entry := Function.update_self ..

theorem buffers_setBuffer_of_ne (s : State κ ρ) {connection k : κ} (hk : k ≠ connection)
    (entry : Option RtuBuffer) : (s.setBuffer connection entry).buffers k = s.buffers k :=
  Function.update_of_ne hk ..

theorem armTimers_none (app : RtuApplicationLayer) {s : State κ ρ} {event : DataEvent κ ρ}
    (hb : s.buffers event.connection = none) :
    armTimers app s event = s.spawn (.interFrame event.connection event.response) := by
  have hspawned : (s.spawn (.interFrame event.connection event.response)).buffers event.connection =
    none := hb
  rw [armTimers, hspawned]

/-- Timers are armed for an entry that holds their handles. -/
theorem armTimers_some (app : RtuApplicationLayer) {s : State κ ρ} {event : DataEvent κ ρ}
    {b : RtuBuffer} (hb : s.buffers event.connection = some b) :
    armTimers app s event =
      let armed := s.spawn (.interFrame event.connection event.response)
      if app.interCharMs > 0 then
        (armed.spawn (.interChar event.connection)).setBuffer event.connection
          (some { b with timer := some s.nextTask, interCharTimer := some armed.nextTask })
      else armed.setBuffer event.connection (some { b with timer := some s.nextTask }) := by
  have hspawned : (s.spawn (.interFrame event.connection event.response)).buffers event.connection =
    some b := hb
  rw [armTimers, hspawned]

/-- Arming the timers of a data event changes no bytes. -/
theorem pool_armTimers (app : RtuApplicationLayer) (s : State κ ρ) (event : DataEvent κ ρ) (k : κ) :
    ((poolOf (s.buffers k)).WF → (poolOf ((armTimers app s event).buffers k)).WF) ∧
      (poolOf ((armTimers app s event).buffers k)).asSlice = (poolOf (s.buffers k)).asSlice := by
  have hset : ∀ (b : RtuBuffer) (timer interCharTimer : Option Nat),
      s.buffers event.connection = some b →
      ((poolOf (s.buffers k)).WF → (poolOf (Function.update s.buffers event.connection
        (some { b with timer := timer, interCharTimer := interCharTimer }) k)).WF) ∧
      (poolOf (Function.update s.buffers event.connection
        (some { b with timer := timer, interCharTimer := interCharTimer }) k)).asSlice =
          (poolOf (s.buffers k)).asSlice := by
    intro b timer interCharTimer hb
    by_cases hk : k = event.connection
    · subst hk
      rw [Function.update_self, hb]
      exact ⟨fun h => ⟨h.pool, h.le, h.bound⟩, rfl⟩
    · rw [Function.update_of_ne hk]
      exact ⟨id, rfl⟩
  cases hb : s.buffers event.connection with
  | none =>
    rw [armTimers_none app hb]
    exact ⟨id, rfl⟩
  | some b =>
    rw [armTimers_some app hb]
    dsimp only
    split
    · exact hset b _ _ hb
    · exact hset b _ b.interCharTimer hb

/-- The entry of a connection is replaced. -/
theorem stepHandles_setBuffer {s t : State κ ρ} (hs : Pools s) {input : Input κ ρ} {connection : κ}
    {entry : Option RtuBuffer} {emits : List (Emit κ ρ)} (ht : t.buffers = s.buffers)
    (hmine : Handles connection ((poolOf (s.buffers connection)).asSlice ++ received connection input)
      entry emits)
    (hread : ∀ k, k ≠ connection → received k input = [])
    (hown : ∀ f, Emit.framing f ∈ emits → f.connection = connection) (k : κ) :
    StepHandles k s input (t.setBuffer connection entry, emits) := by
  refine stepHandles_of_connection ?_ hread ?_ hown k
  · rwa [buffers_setBuffer]
  · intro k hk
    rw [buffers_setBuffer_of_ne t hk, ht]
    exact ⟨hs k, rfl⟩

theorem stepHandles_data (app : RtuApplicationLayer) {s : State κ ρ} (hs : Pools s)
    (event : DataEvent κ ρ) (k : κ) :
    StepHandles k s (.layer (.data event)) (processDataEvent app s event) := by
  have hmine := handles_processEntry app (hs event.connection) event
  have hread : ∀ k, k ≠ event.connection → received k (.layer (.data event) : Input κ ρ) = [] :=
    fun k hk => if_neg (Ne.symm hk)
  have hprocessed : ∀ t : State κ ρ, t.buffers = s.buffers →
      StepHandles k s (.layer (.data event)) (t.setBuffer event.connection
        (app.processEntry (s.buffers event.connection) event).1,
        (app.processEntry (s.buffers event.connection) event).2) := by
    intro t ht
    refine stepHandles_setBuffer hs ht ?_ hread
      (fun f hf => connection_of_mem_processEntry app hf) k
    rw [received, if_pos rfl]
    exact hmine
  replace hprocessed := hprocessed ((s.abort ((s.buffers event.connection).bind (·.timer))).abort
    ((s.buffers event.connection).bind (·.interCharTimer))) (by rw [buffers_abort, buffers_abort])
  unfold processDataEvent
  dsimp only
  split
  · obtain ⟨hwf, hslice⟩ := pool_armTimers app _ event k
    exact ⟨hwf hprocessed.wf, hslice ▸ hprocessed.consumes, hprocessed.genuine⟩
  · exact hprocessed

/-- A timer that was not aborted. -/
theorem step_timer (app : RtuApplicationLayer) {s : State κ ρ} {n : Nat} {task : TimerTask κ ρ}
    (h : s.tasks n = some task) : step app s (.timer n) = runTimer app (s.abort (some n)) task := by
  simp only [step, h]

/-- A timer that was aborted, or has run. -/
theorem step_timer_gone (app : RtuApplicationLayer) {s : State κ ρ} {n : Nat} (h : s.tasks n = none) :
    step app s (.timer n) = (s, []) := by
  simp only [step, h]

/-- A timer that runs. -/
theorem handles_runTimer (app : RtuApplicationLayer) {s : State κ ρ} (hs : Pools s) {input : Input κ ρ}
    (hread : ∀ k, received k input = []) (task : Nat) (t : TimerTask κ ρ) (k : κ) :
    StepHandles k s input (runTimer app (s.abort (some task)) t) := by
  have hbuffers := buffers_abort s (some task)
  cases t with
  | interFrame connection response =>
    refine stepHandles_setBuffer hs hbuffers ?_ (fun k _ => hread k)
      (fun f hf => connection_of_mem_flushPool app response connection app.strict hf) k
    rw [hbuffers, hread, List.append_nil]
    have hwf := hs connection
    cases hentry : s.buffers connection with
    | none => exact ⟨RtuBuffer.wf_new, .refl _, fun f hf => by cases hf⟩
    | some b =>
      rw [hentry] at hwf
      exact handles_flushPool app response connection app.strict hwf
  | interChar connection =>
    refine stepHandles_setBuffer hs hbuffers ?_ (fun k _ => hread k) (fun f hf => by cases hf) k
    rw [hbuffers, hread, List.append_nil]
    have hwf := hs connection
    cases hentry : s.buffers connection with
    | none => exact ⟨RtuBuffer.wf_new, .refl _, fun f hf => by cases hf⟩
    | some b =>
      rw [hentry] at hwf
      exact ⟨⟨hwf.pool, hwf.le, hwf.bound⟩, .refl _, fun f hf => by cases hf⟩

theorem step_handles (app : RtuApplicationLayer) {s : State κ ρ} (hs : Pools s) (input : Input κ ρ)
    (k : κ) : StepHandles k s input (step app s input) := by
  have hnone : ∀ f : Framing κ ρ, Emit.framing f ∈ [] → Genuine f := by
    intro f hf
    cases hf
  have hwf : (poolOf none).WF := RtuBuffer.wf_new
  cases input with
  | layer input =>
    cases input with
    | data event => exact stepHandles_data app hs event k
    | connectionClose connection =>
      refine stepHandles_setBuffer hs rfl ⟨hwf, .dropAll _, hnone⟩ (fun _ _ => rfl) ?_ k
      intro f hf
      cases hf
    | flush => exact ⟨hwf, .dropAll _, hnone⟩
  | timer task =>
    cases htask : s.tasks task with
    | none =>
      rw [step_timer_gone app htask]
      refine ⟨hs k, ?_, hnone⟩
      have hsame : (poolOf (s.buffers k)).asSlice ++ received k (.timer task : Input κ ρ) =
        (poolOf (s.buffers k)).asSlice := List.append_nil _
      rw [hsame]
      exact .refl _
    | some t =>
      rw [step_timer app htask]
      exact handles_runTimer app hs (fun _ => rfl) task t k

end Entries

theorem pools_init : Pools ({} : State κ ρ) := fun _ => RtuBuffer.wf_new

theorem pools_step [DecidableEq κ] (app : RtuApplicationLayer) {s : State κ ρ} (input : Input κ ρ)
    (hs : Pools s) : Pools (step app s input).1 := fun k => (step_handles app hs input k).wf

/-- Every framing of a run is genuine. -/
theorem genuine_of_mem [DecidableEq κ] (app : RtuApplicationLayer) (inputs : List (Input κ ρ))
    {s : State κ ρ} (hs : Pools s) {f : Framing κ ρ}
    (hf : Emit.framing f ∈ (feedAll (step app) s inputs).2) : Genuine f := by
  have hgenuine : ∀ (s : State κ ρ) input, Pools s → Pools (step app s input).1 ∧
      ∀ x ∈ (step app s input).2, ∀ f, x = Emit.framing f → Genuine f := by
    intro s input hs
    refine ⟨pools_step app input hs, ?_⟩
    rintro x hx f rfl
    -- every framing is for its own connection
    exact (step_handles app hs input f.connection).genuine f hx
  exact feedAll_outputs hgenuine inputs hs _ hf f rfl

/-- **No frame is fabricated.** For every layer (either transport, either role, any custom
predictors) and every sequence of data events, closes, `flush()` calls and timers: every framing has a
frame of 4 to 256 bytes and a valid CRC that decodes to its data unit, and the frames published for a
connection are segments of what that connection received, one after the other and in order. -/
theorem framing_genuine [DecidableEq κ] (app : RtuApplicationLayer) (inputs : List (Input κ ρ)) :
    (∀ f, Emit.framing f ∈ (feedAll (step app) {} inputs).2 → 4 ≤ f.raw.length ∧ f.raw.length ≤ 256 ∧
      crcMatches f.raw f.raw.length = true ∧ decode f.raw = .ok ⟨f.adu, f.raw⟩) ∧
      ∀ k, Segments ((framedFor k (feedAll (step app) {} inputs).2).map (·.raw))
        (inputs.flatMap (received k)) := by
  constructor
  · intro f hf
    obtain ⟨hmin, hmax, hcrc, hdecoded⟩ := genuine_of_mem app inputs pools_init hf
    exact ⟨hmin, hmax, hcrc, hdecoded⟩
  · intro k
    have hone : ∀ (s : State κ ρ) input, Pools s → Pools (step app s input).1 ∧
        Consumes ((poolOf (s.buffers k)).asSlice ++ received k input)
          (poolOf ((step app s input).1.buffers k)).asSlice
          ((step app s input).2.filterMap (rawFor k)) :=
      fun s input hs => ⟨pools_step app input hs, (step_handles app hs input k).consumes⟩
    obtain ⟨-, consumed, hstream, hsegments⟩ := feedAll_consumes hone inputs pools_init
    have hparts : (framedFor k (feedAll (step app) {} inputs).2).map (·.raw) =
        (feedAll (step app) {} inputs).2.filterMap (rawFor k) :=
      List.map_filterMap
    have hread : inputs.flatMap (received k) = consumed ++ _ := hstream
    rw [hparts, hread]
    exact hsegments.append_right _

end RsModbus.Rtu
