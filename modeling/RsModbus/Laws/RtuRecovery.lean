import RsModbus.Laws.Receivable
import RsModbus.Laws.RtuTimers

/-!
# A Serial transport recovers at a silence

`Rtu.recovers_after_silence`: whatever a Serial layer has received, and however its timers, closes and
`flush()` calls have come, a silence leaves nothing buffered for the connection, and a burst that follows
is delivered exactly when it is delivered by a layer that has received nothing. A burst of up to 256
bytes always is.

The invariant is `Timed`: for whatever waits in the layer a t3.5 timer is armed, and the entry holds its
handle. So there is a silence that ends what waits, and a strict flush drops all that is no frame.
-/

namespace RsModbus.Rtu

open Library

variable {κ ρ : Type}

/-! ## Entries have timers -/

/-- The timers of an entry: it holds the handle of a live t3.5 timer of its connection, and the task
under its t1.5 handle, if there is one left, is its own. -/
structure TimedEntry (s : State κ ρ) (k : κ) : Prop where
  frame : ∀ b, s.buffers k = some b → ∃ n response, b.timer = some n ∧
    s.tasks n = some (.interFrame k response)
  char : ∀ b c, s.buffers k = some b → b.interCharTimer = some c →
    c < s.nextTask ∧ ∀ t, s.tasks c = some t → t = .interChar k

/-- Every task has a handle that has been given out. -/
def Fresh (s : State κ ρ) : Prop :=
  ∀ n t, s.tasks n = some t → n < s.nextTask

/-- The invariant: every entry has its timers. -/
structure Timed (s : State κ ρ) : Prop where
  fresh : Fresh s
  entry : ∀ k, TimedEntry s k

theorem timed_init : Timed ({} : State κ ρ) where
  fresh _ _ h := by cases h
  entry _ := ⟨nofun, nofun⟩

theorem tasks_abort_of_ne {s : State κ ρ} {handle : Option Nat} {n : Nat} (h : handle ≠ some n) :
    (s.abort handle).tasks n = s.tasks n := by
  cases handle with
  | none => rfl
  | some task => exact Function.update_of_ne (fun heq => h (congrArg some heq.symm)) ..

section Steps

variable {s s' : State κ ρ}

/-- Entries that are left keep their timers, and no timer is armed. -/
theorem Timed.left (h : Timed s) (hnext : s'.nextTask = s.nextTask)
    (htasks : ∀ n t, s'.tasks n = some t → s.tasks n = some t)
    (hbuffers : ∀ k b', s'.buffers k = some b' → ∃ b, s.buffers k = some b ∧ b'.timer = b.timer ∧
      b'.interCharTimer = b.interCharTimer ∧
        ∀ n response, s.tasks n = some (.interFrame k response) → s'.tasks n = s.tasks n) :
    Timed s' := by
  refine ⟨?_, fun k => ⟨?_, ?_⟩⟩
  · intro n t ht
    rw [hnext]
    exact h.fresh n t (htasks n t ht)
  · intro b' hb'
    obtain ⟨b, hb, htimer, -, hkept⟩ := hbuffers k b' hb'
    obtain ⟨n, response, hn, htask⟩ := (h.entry k).frame b hb
    exact ⟨n, response, htimer.trans hn, (hkept n response htask).trans htask⟩
  · intro b' c hb' hc
    obtain ⟨b, hb, -, hchar, -⟩ := hbuffers k b' hb'
    obtain ⟨hlt, hown⟩ := (h.entry k).char b c hb (hchar ▸ hc)
    rw [hnext]
    exact ⟨hlt, fun t ht => hown t (htasks c t ht)⟩

/-- Aborting the timers of one connection leaves the t3.5 timers of the others. -/
theorem Timed.tasks_aborted (h : Timed s) {k k' : κ} (hk : k' ≠ k) {n : Nat} {response : ρ}
    (htask : s.tasks n = some (.interFrame k' response)) :
    ((s.abort ((s.buffers k).bind (·.timer))).abort ((s.buffers k).bind (·.interCharTimer))).tasks n =
      some (.interFrame k' response) := by
  cases hb : s.buffers k with
  | none => exact htask
  | some b =>
    have htimer : b.timer ≠ some n := by
      intro hn
      obtain ⟨m, response', hm, hframe⟩ := (h.entry k).frame b hb
      cases hm.symm.trans hn
      cases hframe.symm.trans htask
      exact hk rfl
    have hchar : b.interCharTimer ≠ some n := by
      intro hn
      cases ((h.entry k).char b n hb hn).2 _ htask
    rw [Option.bind_some, Option.bind_some, tasks_abort_of_ne hchar, tasks_abort_of_ne htimer, htask]

variable [DecidableEq κ] {app : RtuApplicationLayer}

omit [DecidableEq κ] in
theorem Fresh.spawn (h : Fresh s) (task : TimerTask κ ρ) : Fresh (s.spawn task) := by
  intro n t ht
  rcases tasks_spawn ht with ⟨rfl, -⟩ | ht
  · exact Nat.lt_succ_self _
  · exact Nat.lt_succ_of_lt (h n t ht)

omit [DecidableEq κ] in
/-- A new task leaves those that are there. -/
theorem tasks_spawn_of_lt (task : TimerTask κ ρ) {n : Nat} (hn : n < s.nextTask) :
    (s.spawn task).tasks n = s.tasks n :=
  Function.update_of_ne (Nat.ne_of_lt hn) ..

omit [DecidableEq κ] in
/-- A new task leaves the timers of the entries. -/
theorem TimedEntry.spawn {k : κ} (h : TimedEntry s k) (hfresh : Fresh s) (task : TimerTask κ ρ) :
    TimedEntry (s.spawn task) k := by
  refine ⟨?_, ?_⟩
  · intro b hb
    obtain ⟨n, response, hn, htask⟩ := h.frame b hb
    exact ⟨n, response, hn, (tasks_spawn_of_lt task (hfresh n _ htask)).trans htask⟩
  · intro b c hb hc
    obtain ⟨hlt, hown⟩ := h.char b c hb hc
    exact ⟨Nat.lt_succ_of_lt hlt, fun t ht =>
      hown t ((tasks_spawn_of_lt task hlt).symm.trans ht)⟩

/-- Replacing an entry leaves the timers of the others. -/
theorem TimedEntry.setBuffer {k k' : κ} (h : TimedEntry s k) (hk : k ≠ k') (entry : Option RtuBuffer) :
    TimedEntry (s.setBuffer k' entry) k := by
  have hkept : (s.setBuffer k' entry).buffers k = s.buffers k := buffers_setBuffer_of_ne _ hk _
  exact ⟨fun b hb => h.frame b (hkept.symm.trans hb), fun b c hb => h.char b c (hkept.symm.trans hb)⟩

/-- A data event that arms timers: those of the other connections stay, and its entry holds the handles
of the new ones. -/
theorem timed_armTimers (event : DataEvent κ ρ) (hfresh : Fresh s)
    (hothers : ∀ k, k ≠ event.connection → TimedEntry s k)
    {b : RtuBuffer} (hb : s.buffers event.connection = some b) (huntimed : Untimed b) :
    Timed (armTimers app s event) := by
  have hone := hfresh.spawn (.interFrame event.connection event.response)
  rw [armTimers_some app hb]
  dsimp only
  split
  · refine ⟨hone.spawn (.interChar event.connection), fun k => ?_⟩
    by_cases hk : k = event.connection
    · subst hk
      refine ⟨?_, ?_⟩
      · intro b' hb'
        cases (buffers_setBuffer ..).symm.trans hb'
        refine ⟨s.nextTask, event.response, rfl, ?_⟩
        exact (tasks_spawn_of_lt _ (Nat.lt_succ_self _)).trans (Function.update_self ..)
      · intro b' c hb' hc
        cases (buffers_setBuffer ..).symm.trans hb'
        cases hc
        refine ⟨Nat.lt_succ_self _, ?_⟩
        intro t ht
        cases (Function.update_self ..).symm.trans ht
        rfl
    · exact (((hothers k hk).spawn hfresh _).spawn hone _).setBuffer hk _
  · refine ⟨hone, fun k => ?_⟩
    by_cases hk : k = event.connection
    · subst hk
      refine ⟨?_, ?_⟩
      · intro b' hb'
        cases (buffers_setBuffer ..).symm.trans hb'
        exact ⟨s.nextTask, event.response, rfl, Function.update_self ..⟩
      · intro b' c hb' hc
        cases (buffers_setBuffer ..).symm.trans hb'
        cases huntimed.2.symm.trans hc
    · exact ((hothers k hk).spawn hfresh _).setBuffer hk _

/-- On a Serial transport what a data event leaves waits for a timer that it arms. -/
theorem Timed.data (h : Timed s) (hs : Pools s) (hserial : 0 < app.intervalMs)
    (event : DataEvent κ ρ) : Timed (processDataEvent app s event).1 := by
  generalize hprocessed : ((s.abort ((s.buffers event.connection).bind (·.timer))).abort
    ((s.buffers event.connection).bind (·.interCharTimer))).setBuffer event.connection
      (app.processEntry (s.buffers event.connection) event).1 = processed
  have hentry : processed.buffers event.connection =
      (app.processEntry (s.buffers event.connection) event).1 := by
    rw [← hprocessed, buffers_setBuffer]
  have hother : ∀ k, k ≠ event.connection → processed.buffers k = s.buffers k := by
    intro k hk
    rw [← hprocessed, buffers_setBuffer_of_ne _ hk, buffers_abort, buffers_abort]
  have hnext : processed.nextTask = s.nextTask := by
    rw [← hprocessed, State.setBuffer, nextTask_abort, nextTask_abort]
  have htasks : ∀ n t, processed.tasks n = some t → s.tasks n = some t := by
    intro n t ht
    rw [← hprocessed] at ht
    exact tasks_abort (tasks_abort ht)
  have hkept : ∀ k n response, k ≠ event.connection →
      s.tasks n = some (.interFrame k response) → processed.tasks n = some (.interFrame k response) := by
    intro k n response hk htask
    rw [← hprocessed]
    exact h.tasks_aborted hk htask
  unfold processDataEvent
  dsimp only
  rw [hprocessed]
  split
  next harms =>
    rw [processEntry_of_arms app harms] at hentry
    refine timed_armTimers event ?_ (fun k hk => ⟨?_, ?_⟩) hentry (untimed_receive app _ event)
    · exact fun n t ht => hnext.symm ▸ h.fresh n t (htasks n t ht)
    · intro b hb
      obtain ⟨n, response, hn, htask⟩ := (h.entry k).frame b ((hother k hk).symm.trans hb)
      exact ⟨n, response, hn, hkept k n response hk htask⟩
    · intro b c hb hc
      obtain ⟨hlt, hown⟩ := (h.entry k).char b c ((hother k hk).symm.trans hb) hc
      exact ⟨hnext.symm ▸ hlt, fun t ht => hown t (htasks c t ht)⟩
  next harms =>
    -- a pool that is not waited for was flushed, strictly
    have hgone : processed.buffers event.connection = none := by
      have hstrict : app.strict = true := decide_eq_true hserial
      have hreceived := (handles_receive app (hs event.connection) event).2.wf
      rw [hentry, processEntry_of_not_arms app harms, hstrict]
      exact flushPool_strict app event.response event.connection hreceived
    refine h.left hnext htasks ?_
    intro k b hb
    have hk : k ≠ event.connection := by
      rintro rfl
      cases hgone.symm.trans hb
    refine ⟨b, (hother k hk).symm.trans hb, rfl, rfl, ?_⟩
    intro n response htask
    rw [hkept k n response hk htask, htask]

/-- A timer that runs leaves the t3.5 timers of the entries that stay. -/
theorem Timed.timer (h : Timed s) (hs : Pools s) (hserial : 0 < app.intervalMs) (n : Nat) :
    Timed (step app s (.timer n)).1 := by
  cases htask : s.tasks n with
  | none =>
    rw [step_timer_gone app htask]
    exact h
  | some task =>
    rw [step_timer app htask]
    have hruns : (runTimer app (s.abort (some n)) task).1.tasks = (s.abort (some n)).tasks ∧
        (runTimer app (s.abort (some n)) task).1.nextTask = s.nextTask := by
      cases task <;> exact ⟨rfl, rfl⟩
    refine h.left hruns.2 (fun n' t ht => tasks_abort (congrFun hruns.1 n' ▸ ht)) ?_
    intro k b' hb'
    have hkept : ∀ n' response, n' ≠ n → s.tasks n' = some (.interFrame k response) →
        (runTimer app (s.abort (some n)) task).1.tasks n' = s.tasks n' := by
      intro n' response hn _
      rw [hruns.1]
      exact tasks_abort_of_ne fun heq => hn (Option.some.inj heq).symm
    by_cases hk : k = task.connection
    · subst hk
      cases task with
      | interFrame connection response =>
        cases (buffers_interFrame hserial hs n connection response).symm.trans hb'
      | interChar connection =>
        obtain ⟨b, hb, rfl⟩ := Option.map_eq_some_iff.mp
          ((buffers_interChar app s n connection).symm.trans hb')
        refine ⟨b, hb, rfl, rfl, fun n' response hframe => hkept n' response ?_ hframe⟩
        rintro rfl
        cases hframe.symm.trans htask
    · rw [buffers_runTimer_of_ne app s n hk] at hb'
      refine ⟨b', hb', rfl, rfl, fun n' response hframe => hkept n' response ?_ hframe⟩
      rintro rfl
      cases hframe.symm.trans htask
      exact hk rfl

/-- **Every step of a Serial layer keeps the invariant of its entries.** -/
theorem timed_step (h : Timed s) (hs : Pools s) (hserial : 0 < app.intervalMs) (input : Input κ ρ) :
    Timed (step app s input).1 := by
  cases input with
  | layer input =>
    cases input with
    | data event => exact h.data hs hserial event
    | connectionClose connection =>
      refine h.left rfl (fun n t ht => ht) ?_
      intro k b hb
      by_cases hk : k = connection
      · subst hk
        cases (buffers_setBuffer ..).symm.trans hb
      · exact ⟨b, (buffers_setBuffer_of_ne _ hk none).symm.trans hb, rfl, rfl, fun _ _ _ => rfl⟩
    | flush =>
      refine h.left rfl (fun n t ht => ht) ?_
      intro k b hb
      cases hb
  | timer n => exact h.timer hs hserial n

end Steps

/-! ## Silences -/

section Silence

variable [DecidableEq κ] {app : RtuApplicationLayer} {s : State κ ρ}

/-- Whatever a run has left in a Serial layer, each entry has its timers. -/
theorem timed_stateAfter (hserial : 0 < app.intervalMs) (inputs : List (Input κ ρ)) :
    Timed (stateAfter app inputs) := by
  have hstep : ∀ (s : State κ ρ) input, Pools s ∧ Timed s →
      Pools (step app s input).1 ∧ Timed (step app s input).1 :=
    fun s input h => ⟨pools_step app input h.1, timed_step h.2 h.1 hserial input⟩
  exact (feedAll_invariant (P := fun s => Pools s ∧ Timed s) hstep inputs ⟨pools_init, timed_init⟩).2

/-- An entry that an expiry leaves is one that was there, with its timer, and the expiry was not that of
its t3.5 timer. -/
theorem entry_of_expiry (hserial : 0 < app.intervalMs) (hs : Pools s) (h : Timed s) {k : κ} {m : Nat}
    {b' : RtuBuffer} (hb' : (step app s (.timer m)).1.buffers k = some b') :
    ∃ b, s.buffers k = some b ∧ b'.timer = b.timer ∧ b.timer ≠ some m := by
  cases htask : s.tasks m with
  | none =>
    rw [step_timer_gone app htask] at hb'
    refine ⟨b', hb', rfl, ?_⟩
    intro hm
    obtain ⟨n, response, hn, hframe⟩ := (h.entry k).frame b' hb'
    cases hn.symm.trans hm
    cases hframe.symm.trans htask
  | some task =>
    rw [step_timer app htask] at hb'
    have hown : ∀ b, s.buffers k = some b → b.timer = some m → ∃ response,
        task = .interFrame k response := by
      intro b hb hm
      obtain ⟨n, response, hn, hframe⟩ := (h.entry k).frame b hb
      cases hn.symm.trans hm
      exact ⟨response, Option.some.inj (htask.symm.trans hframe)⟩
    by_cases hk : k = task.connection
    · cases task with
      | interFrame connection response =>
        subst hk
        cases (buffers_interFrame hserial hs m k response).symm.trans hb'
      | interChar connection =>
        subst hk
        obtain ⟨b, hb, rfl⟩ := Option.map_eq_some_iff.mp
          ((buffers_interChar app s m k).symm.trans hb')
        refine ⟨b, hb, rfl, fun hm => ?_⟩
        obtain ⟨response, hframe⟩ := hown b hb hm
        cases hframe
    · rw [buffers_runTimer_of_ne app s m hk] at hb'
      refine ⟨b', hb', rfl, fun hm => ?_⟩
      obtain ⟨response, rfl⟩ := hown b' hb' hm
      exact hk rfl

/-- **A silence leaves nothing**: once the t3.5 timer of what waits has expired, with any other timers
before it and after it, nothing does. -/
theorem buffers_silence (hserial : 0 < app.intervalMs) {k : κ} {expired : List Nat} (hs : Pools s)
    (h : Timed s) (hexpired : ∀ b n, s.buffers k = some b → b.timer = some n → n ∈ expired) :
    (feedAll (step app) s (expired.map .timer)).1.buffers k = none := by
  induction expired generalizing s with
  | nil =>
    cases hb : s.buffers k with
    | none => exact hb
    | some b =>
      obtain ⟨n, response, htimer, -⟩ := (h.entry k).frame b hb
      cases hexpired b n hb htimer
  | cons m expired ih =>
    rw [List.map_cons, feedAll_cons]
    refine ih (pools_step app _ hs) (timed_step h hs hserial _) ?_
    intro b' n hb' hn
    obtain ⟨b, hb, htimer, hother⟩ := entry_of_expiry hserial hs h hb'
    rw [htimer] at hn
    rcases List.mem_cons.mp (hexpired b n hb hn) with rfl | hmem
    · exact absurd hn hother
    · exact hmem

omit [DecidableEq κ] in
/-- Nothing waits for a connection with no entry. -/
theorem waiting_of_none {k : κ} (h : s.buffers k = none) : Waiting s k [] := by
  refine ⟨?_, by decide, fun b hb => ?_⟩
  · rw [h]
    exact holds_new
  · cases h.symm.trans hb

end Silence

/-! ## Bursts after a silence -/

section Recovery

variable [DecidableEq κ] {app : RtuApplicationLayer} {s : State κ ρ} {k : κ}

/-- A burst that finds nothing waiting. -/
theorem burst_iff (happ : SerialPlain app) (hwaiting : Waiting s k [])
    {events : List (DataEvent κ ρ)} (hk : ∀ event ∈ events, event.connection = k)
    {frames : List Bytes} (hframes : ∀ f ∈ frames, WellFormed app.isResponse f)
    (hcut : (events.map (·.data)).flatten = frames.flatten) (charFirst : Bool) :
    let run := feedAll (step app) s (events.map fun event => .layer (.data event))
    Delivers k (run.2 ++ (feedAll (step app) run.1 (silence k charFirst run.1)).2) frames ↔
      ∀ q ∈ flushPositions 0 0 (events.map (·.data.length)), EndsFrame frames q := by
  intro run
  obtain ⟨hrun, hstop⟩ := events_burst happ hframes k hk hwaiting
    (show frames = [] ++ frames from rfl) hcut.symm
  constructor
  · rintro ⟨-, herrors⟩
    by_contra hnot
    rw [framingErrors_append] at herrors
    exact hstop hnot (List.append_eq_nil_iff.mp herrors).1
  · intro hall
    obtain ⟨whole, todo, rfl, hdelivers, hwaiting⟩ := hrun hall
    exact hdelivers.append (silence_burst happ hframes k
      (fun f hf => List.mem_append_right _ hf) hwaiting charFirst)

/-- **A Serial transport recovers at a silence.** Whatever a layer without custom function codes has
gone through (any data, closes, `flush()` calls and expiries of timers), once timers have expired and
that of what waits for a connection is one of them, nothing waits for it, and a burst of frames that are
well formed for the layer's role, cut into data events of any sizes with no expiry in between and
followed by a silence, is delivered with no error if and only if every flush that the sizes trigger comes
at the end of a frame; and always, if it has 256 bytes at most, as a frame alone has. -/
theorem recovers_after_silence (role : ApplicationRole) (intervals : Nat × Nat)
    (hserial : 0 < intervals.1) (before : List (Input κ ρ)) (k : κ) (expired : List Nat)
    (hexpired : ∀ b n, (feedAll (step (.new .serial intervals (some role))) {} before).1.buffers k =
      some b → b.timer = some n → n ∈ expired)
    (events : List (DataEvent κ ρ)) (hk : ∀ event ∈ events, event.connection = k)
    (frames : List Bytes) (hframes : ∀ f ∈ frames, WellFormed (role == .master) f)
    (hcut : (events.map (·.data)).flatten = frames.flatten) (charFirst : Bool) :
    let app := RtuApplicationLayer.new .serial intervals (some role)
    let quiet := (feedAll (step app) {} (before ++ expired.map .timer)).1
    let run := feedAll (step app) quiet (events.map fun event => .layer (.data event))
    let emits := run.2 ++ (feedAll (step app) run.1 (silence k charFirst run.1)).2
    quiet.buffers k = none ∧
      (Delivers k emits frames ↔
        ∀ q ∈ flushPositions 0 0 (events.map (·.data.length)), EndsFrame frames q) ∧
      (frames.flatten.length ≤ maxFrameLength → Delivers k emits frames) := by
  intro app quiet run emits
  have happ : SerialPlain app := ⟨hserial, rfl⟩
  have hquiet : quiet.buffers k = none := by
    have hsplit : quiet = (feedAll (step app) (stateAfter app before) (expired.map .timer)).1 := by
      simp only [quiet, feedAll_append, stateAfter]
    rw [hsplit]
    exact buffers_silence hserial (pools_stateAfter app before) (timed_stateAfter hserial before)
      hexpired
  have hiff : Delivers k emits frames ↔ _ :=
    burst_iff happ (waiting_of_none hquiet) hk hframes hcut charFirst
  refine ⟨hquiet, hiff, ?_⟩
  intro hshort
  refine hiff.mpr fun q hq => ?_
  have hlengths : events.map (·.data.length) = (events.map (·.data)).map (·.length) :=
    (List.map_map ..).symm
  rw [hlengths] at hq
  have hend := flushPositions_one (by rw [Nat.zero_add, hcut]; exact hshort) q hq
  exact ⟨frames, [], (List.append_nil _).symm, by rw [hend, hcut, Nat.zero_add, Nat.zero_add]⟩

/-- Part of a request, a `flush()` and noise, and then a silence in which all four timers expire: the
next request, in two chunks, is delivered. -/
theorem recovers_after_silence_noise :
    let app := RtuApplicationLayer.new .serial (4, 2) (some .slave)
    let noise : List (Input Unit Unit) := [.layer (.data ⟨writeFrame.take 3, (), ()⟩), .layer .flush,
      .layer (.data ⟨[0xff, 0x00, 0x13], (), ()⟩)]
    let quiet := (feedAll (step app) {} (noise ++ [1, 0, 3, 2].map .timer)).1
    let run := feedAll (step app) quiet ([⟨writeFrame.take 3, (), ()⟩,
      ⟨writeFrame.drop 3, (), ()⟩].map fun event => .layer (.data event))
    Delivers () (run.2 ++ (feedAll (step app) run.1 (silence () false run.1)).2) [writeFrame] := by
  have hexpired : ∀ b n, (feedAll (step (.new .serial (4, 2) (some .slave)))
      ({} : State Unit Unit) [.layer (.data ⟨writeFrame.take 3, (), ()⟩), .layer .flush,
        .layer (.data ⟨[0xff, 0x00, 0x13], (), ()⟩)]).1.buffers () = some b →
      b.timer = some n → n ∈ [1, 0, 3, 2] := by
    intro b n hb hn
    have htimer : ((feedAll (step (.new .serial (4, 2) (some .slave))) ({} : State Unit Unit)
        [.layer (.data ⟨writeFrame.take 3, (), ()⟩), .layer .flush,
          .layer (.data ⟨[0xff, 0x00, 0x13], (), ()⟩)]).1.buffers ()).bind (·.timer) = some 2 := by
      decide +kernel
    rw [hb, Option.bind_some, hn] at htimer
    cases htimer
    decide
  refine (recovers_after_silence .slave (4, 2) (by decide) _ () [1, 0, 3, 2] hexpired
    [⟨writeFrame.take 3, (), ()⟩, ⟨writeFrame.drop 3, (), ()⟩] (fun _ _ => rfl) [writeFrame] ?_ rfl
    false).2.2 (by decide)
  intro f hf
  rw [List.mem_singleton.mp hf]
  exact wellFormed_writeFrame

end Recovery

end RsModbus.Rtu
