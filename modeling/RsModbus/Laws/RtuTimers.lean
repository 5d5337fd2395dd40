import RsModbus.Laws.RtuStream
import Mathlib.Data.List.Induction

/-!
# RTU: the timers of a Serial transport

A data event arms a t3.5 and a t1.5 timer for its connection. `Rtu.timers_own_iff`: in a run of the
layer (any data events, closes, `flush()` calls and timers) no timer that a later data event, close
or `flush()` has superseded changes a buffer, and no frame reaches over a silence, exactly when every
timer that expires finds its handle in the entry of its connection, or no entry there.

* `silences_separate`: the frames never reach over a silence. A t3.5 flush is strict and leaves
  nothing; what a t1.5 mark finds is dropped by the next data event.
* `Tracked`: a handle that an entry holds belongs to a timer that is not superseded. A data event
  aborts the handles it finds. `flush()`, a close and a flush that empties the pool drop the entry
  with its handles and leave the timers armed, so a timer may outlive the bytes it was armed for.
-/

namespace RsModbus.Rtu

open Library

variable {κ ρ : Type}

/-! ## Strict flushes -/

/-- A strict flush leaves nothing. -/
theorem flushBytes_strict (app : RtuApplicationLayer) (response : ρ) (connection : κ) (t15 : Bool) :
    ∀ {fuel : Nat} {bytes : Bytes}, bytes.length ≤ fuel →
      (flushBytes app response connection true t15 fuel bytes).1.1 = []
  | 0, bytes, h => List.eq_nil_of_length_eq_zero (Nat.le_zero.mp h)
  | fuel + 1, bytes, h => by
    simp only [flushBytes]
    split
    next hnil => exact List.isEmpty_iff.mp hnil
    next hne =>
      have hpos : bytes.length ≠ 0 := fun e => hne (List.isEmpty_iff_length_eq_zero.mpr e)
      have hrest : ∀ n, 0 < n → (bytes.drop n).length ≤ fuel := by
        intro n hn
        rw [List.length_drop]
        omega
      cases htry : tryExtract bytes app.isResponse app.customFunctionCodes with
      | frame skip n =>
        obtain ⟨-, hmin, -⟩ := tryExtract_frame htry
        exact flushBytes_strict app response connection t15 (hrest _ (by omega))
      | skip => rfl
      | insufficient =>
        dsimp only
        split
        · exact flushBytes_strict app response connection t15 (hrest 1 Nat.one_pos)
        · rfl
      | invalid => rfl

/-- A strict `flush_pool` leaves no entry. -/
theorem flushPool_strict (app : RtuApplicationLayer) (response : ρ) (connection : κ)
    {entry : Option RtuBuffer} (h : (poolOf entry).WF) :
    (app.flushPool response connection true entry).1 = none := by
  cases entry with
  | none => rfl
  | some b =>
    obtain ⟨-, -, -, -, hgone, -⟩ := flushPool_simulates app response connection true h
    exact hgone (flushBytes_strict app response connection _ (Nat.le_refl _))

/-! ## Runs -/

/-- The connection of a timer. -/
def TimerTask.connection : TimerTask κ ρ → κ
  | .interFrame connection _ => connection
  | .interChar connection => connection

variable [DecidableEq κ]

/-- The state of a layer after its inputs. -/
def stateAfter (app : RtuApplicationLayer) (inputs : List (Input κ ρ)) : State κ ρ :=
  (feedAll (step app) {} inputs).1

/-- The data event arms timer `n`, when it follows these inputs. -/
def ArmedBy (app : RtuApplicationLayer) (before : List (Input κ ρ)) (event : DataEvent κ ρ) (n : Nat) :
    Prop :=
  (stateAfter app before).nextTask ≤ n ∧
    n < (stateAfter app (before ++ [.layer (.data event)])).nextTask

/-- An input that ends what the timers of connection `k` were armed for. -/
def Supersedes (k : κ) : Input κ ρ → Prop
  | .layer (.data event) => event.connection = k
  | .layer (.connectionClose connection) => connection = k
  | .layer .flush => True
  | .timer _ => False

/-- Timer `n`, of this task, expires in a run. -/
structure Expires (app : RtuApplicationLayer) (inputs before : List (Input κ ρ)) (n : Nat)
    (task : TimerTask κ ρ) (after : List (Input κ ρ)) : Prop where
  run : inputs = before ++ .timer n :: after
  live : (stateAfter app before).tasks n = some task

/-- Timer `n` has no effect on the buffers, and publishes nothing. -/
def Idle (app : RtuApplicationLayer) (s : State κ ρ) (n : Nat) : Prop :=
  (step app s (.timer n)).1.buffers = s.buffers ∧ (step app s (.timer n)).2 = []

/-- No timer acts once it is superseded. -/
def TimersOwn (app : RtuApplicationLayer) (inputs : List (Input κ ρ)) : Prop :=
  ∀ before event since n after, inputs = before ++ .layer (.data event) :: since ++ .timer n :: after →
    ArmedBy app before event n → (∃ input ∈ since, Supersedes event.connection input) →
      Idle app (stateAfter app (before ++ .layer (.data event) :: since)) n

/-- No frame holds bytes from both sides of an expiry. -/
def SilencesSeparate (app : RtuApplicationLayer) (inputs : List (Input κ ρ)) : Prop :=
  ∀ before n task after, Expires app inputs before n task after →
    ∃ early late, (framedFor task.connection (feedAll (step app) {} inputs).2).map (·.raw) =
        early ++ late ∧
      Segments early (before.flatMap (received task.connection)) ∧
      Segments late (after.flatMap (received task.connection))

/-- The entry holds the handle of a task. -/
def HasHandle (b : RtuBuffer) (n : Nat) : TimerTask κ ρ → Prop
  | .interFrame _ _ => b.timer = some n
  | .interChar _ => b.interCharTimer = some n

/-- What an expiry finds: no entry, its own handle, or (at t1.5) a mark that is already there. -/
def Finds (n : Nat) (entry : Option RtuBuffer) : TimerTask κ ρ → Prop
  | .interFrame _ _ => ∀ b, entry = some b → b.timer = some n
  | .interChar _ => ∀ b, entry = some b → b.interCharTimer = some n ∨ b.t15Expired = true

/-- The handle of every timer that expires is in the entry of its connection, if there is one. -/
def HandlesKept (app : RtuApplicationLayer) (inputs : List (Input κ ρ)) : Prop :=
  ∀ before n task after, Expires app inputs before n task after →
    Finds n ((stateAfter app before).buffers task.connection) task

theorem stateAfter_snoc (app : RtuApplicationLayer) (inputs : List (Input κ ρ)) (input : Input κ ρ) :
    stateAfter app (inputs ++ [input]) = (step app (stateAfter app inputs) input).1 := by
  rw [stateAfter, feedAll_append]
  rfl

theorem pools_stateAfter (app : RtuApplicationLayer) (inputs : List (Input κ ρ)) :
    Pools (stateAfter app inputs) :=
  feedAll_invariant (P := Pools) (fun _ input hs k => (step_handles app hs input k).wf) inputs
    fun _ => RtuBuffer.wf_new

/-! ## What a data event arms -/

section Arming

/-- The entry holds no handles. -/
def Untimed (b : RtuBuffer) : Prop := b.timer = none ∧ b.interCharTimer = none

variable (app : RtuApplicationLayer) (response : ρ) (connection : κ) (strict : Bool)

omit [DecidableEq κ] in
theorem untimed_flushLoop : ∀ (fuel : Nat) {b : RtuBuffer}, Untimed b →
    Untimed (app.flushLoop response connection strict fuel b).1
  | 0, _, h => h
  | fuel + 1, b, h => by
    have hdrop : ∀ n, Untimed (app.flushLoop response connection strict fuel (b.drain n)).1 :=
      fun n => untimed_flushLoop fuel h
    simp only [RtuApplicationLayer.flushLoop]
    split
    · exact h
    · cases htry : tryExtract b.asSlice app.isResponse app.customFunctionCodes with
      | frame skip n =>
        obtain ⟨rfl, -⟩ := tryExtract_frame htry
        exact hdrop n
      | skip =>
        dsimp only
        split
        · exact h
        · exact hdrop 1
      | insufficient =>
        dsimp only
        split
        · exact hdrop 1
        · split
          · exact h
          · split <;> exact h
      | invalid => exact h

theorem untimed_compact {b : RtuBuffer} (h : Untimed b) : Untimed b.compact := by
  unfold RtuBuffer.compact
  split
  · split <;> exact h
  · exact h

omit [DecidableEq κ] in
theorem untimed_flushPool {b b' : RtuBuffer} (h : Untimed b)
    (hb' : (app.flushPool response connection strict (some b)).1 = some b') : Untimed b' := by
  simp only [RtuApplicationLayer.flushPool] at hb'
  split at hb'
  · cases hb'
  · cases hb'
    exact untimed_compact (untimed_flushLoop app response connection strict _ h)

omit [DecidableEq κ] in
theorem untimed_consume : ∀ (fuel : Nat) {b : RtuBuffer} (data : Bytes), Untimed b →
    Untimed (app.consume response connection fuel b data).1
  | 0, _, _, h => h
  | fuel + 1, b, data, h => by
    have hfresh : Untimed
        ((app.flushPool response connection app.strict (some b)).1.getD .new) := by
      cases hflushed : (app.flushPool response connection app.strict (some b)).1 with
      | none => exact ⟨rfl, rfl⟩
      | some b' => exact untimed_flushPool app response connection app.strict h hflushed
    simp only [RtuApplicationLayer.consume]
    split
    · exact h
    · split
      · split
        · exact hfresh
        · exact untimed_consume fuel data hfresh
      · exact untimed_consume fuel _ h

omit [DecidableEq κ] in
theorem untimed_receive (entry : Option RtuBuffer) (event : DataEvent κ ρ) :
    Untimed (app.receive entry event).1 :=
  untimed_consume app event.response event.connection _ event.data ⟨rfl, rfl⟩

omit [DecidableEq κ] in
theorem untimed_processEntry {entry : Option RtuBuffer} {event : DataEvent κ ρ} {b : RtuBuffer}
    (hb : (app.processEntry entry event).1 = some b) : Untimed b := by
  have hreceived := untimed_receive app entry event
  simp only [RtuApplicationLayer.processEntry] at hb
  split at hb
  · exact untimed_flushPool app event.response event.connection app.strict hreceived hb
  · cases hb
    exact hreceived

end Arming

/-- What a data event does to the timers: the entry holds the handles of those it arms, and of no
others. -/
structure DataStep (app : RtuApplicationLayer) (event : DataEvent κ ρ) (s s' : State κ ρ) : Prop where
  other : ∀ k, k ≠ event.connection → s'.buffers k = s.buffers k
  next : s.nextTask ≤ s'.nextTask
  handles : ∀ b n, s'.buffers event.connection = some b → b.timer = some n ∨ b.interCharTimer = some n →
    s.nextTask ≤ n ∧ n < s'.nextTask
  tasks : ∀ n t, s'.tasks n = some t → s.tasks n = some t ∨
    0 < app.intervalMs ∧ (s.nextTask ≤ n ∧ n < s'.nextTask) ∧ t.connection = event.connection ∧
      ∃ b, s'.buffers event.connection = some b ∧ HasHandle b n t

section DataStep

variable {s : State κ ρ}

omit [DecidableEq κ] in
/-- A task of the state after a spawn. -/
theorem tasks_spawn {task t : TimerTask κ ρ} {n : Nat} (h : (s.spawn task).tasks n = some t) :
    n = s.nextTask ∧ task = t ∨ s.tasks n = some t := by
  have hupdate : (s.spawn task).tasks = Function.update s.tasks s.nextTask (some task) := rfl
  rw [hupdate] at h
  by_cases hn : n = s.nextTask
  · rw [hn, Function.update_self] at h
    exact .inl ⟨hn, Option.some.inj h⟩
  · rw [Function.update_of_ne hn] at h
    exact .inr h

theorem dataStep_armTimers (app : RtuApplicationLayer) {event : DataEvent κ ρ} {b : RtuBuffer}
    (hserial : 0 < app.intervalMs) (hb : s.buffers event.connection = some b) (huntimed : Untimed b) :
    DataStep app event s (armTimers app s event) := by
  rw [armTimers_some app hb]
  dsimp only
  split
  · refine ⟨fun k hk => Function.update_of_ne hk .., Nat.le_add_right s.nextTask 2, ?_, ?_⟩
    · intro b' n hb' hn
      cases (buffers_setBuffer ..).symm.trans hb'
      rcases hn with hn | hn
      · cases hn
        exact ⟨Nat.le_refl _, Nat.lt_add_of_pos_right Nat.two_pos⟩
      · cases hn
        exact ⟨Nat.le_succ _, Nat.lt_succ_self _⟩
    · intro n t ht
      rcases tasks_spawn ht with ⟨rfl, rfl⟩ | ht
      · exact .inr ⟨hserial, ⟨Nat.le_succ _, Nat.lt_succ_self _⟩, rfl, _, buffers_setBuffer .., rfl⟩
      rcases tasks_spawn ht with ⟨rfl, rfl⟩ | ht
      · exact .inr ⟨hserial, ⟨Nat.le_refl _, Nat.lt_add_of_pos_right Nat.two_pos⟩, rfl, _,
          buffers_setBuffer .., rfl⟩
      · exact .inl ht
  · refine ⟨fun k hk => Function.update_of_ne hk .., Nat.le_succ s.nextTask, ?_, ?_⟩
    · intro b' n hb' hn
      cases (buffers_setBuffer ..).symm.trans hb'
      rcases hn with hn | hn
      · cases hn
        exact ⟨Nat.le_refl _, Nat.lt_succ_self _⟩
      · cases huntimed.2.symm.trans hn
    · intro n t ht
      rcases tasks_spawn ht with ⟨rfl, rfl⟩ | ht
      · exact .inr ⟨hserial, ⟨Nat.le_refl _, Nat.lt_succ_self _⟩, rfl, _, buffers_setBuffer .., rfl⟩
      · exact .inl ht

omit [DecidableEq κ] in
/-- A task of the state after an abort. -/
theorem tasks_abort {handle : Option Nat} {n : Nat} {t : TimerTask κ ρ}
    (h : (s.abort handle).tasks n = some t) : s.tasks n = some t := by
  cases handle with
  | none => exact h
  | some task =>
    have hupdate : (s.abort (some task)).tasks = Function.update s.tasks task none := rfl
    rw [hupdate] at h
    by_cases hn : n = task
    · rw [hn, Function.update_self] at h
      cases h
    · rwa [Function.update_of_ne hn] at h

omit [DecidableEq κ] in
theorem nextTask_abort (s : State κ ρ) (handle : Option Nat) :
    (s.abort handle).nextTask = s.nextTask := by
  cases handle <;> rfl

/-- What a data event does to the timers. -/
theorem dataStep_processDataEvent (app : RtuApplicationLayer) (s : State κ ρ) (event : DataEvent κ ρ) :
    DataStep app event s (processDataEvent app s event).1 := by
  generalize hprocessed : ((s.abort ((s.buffers event.connection).bind (·.timer))).abort
    ((s.buffers event.connection).bind (·.interCharTimer))).setBuffer event.connection
      (app.processEntry (s.buffers event.connection) event).1 = processed
  have hother : ∀ k, k ≠ event.connection → processed.buffers k = s.buffers k := by
    intro k hk
    rw [← hprocessed, buffers_setBuffer_of_ne _ hk, buffers_abort, buffers_abort]
  have hentry : processed.buffers event.connection =
      (app.processEntry (s.buffers event.connection) event).1 := by
    rw [← hprocessed, buffers_setBuffer]
  have hnext : processed.nextTask = s.nextTask := by
    rw [← hprocessed, State.setBuffer, nextTask_abort, nextTask_abort]
  have htasks : ∀ n t, processed.tasks n = some t → s.tasks n = some t := by
    intro n t ht
    rw [← hprocessed] at ht
    exact tasks_abort (tasks_abort ht)
  unfold processDataEvent
  dsimp only
  rw [hprocessed]
  split
  next harms =>
    obtain ⟨hserial, -⟩ := (arms_iff app).mp harms
    rw [processEntry_of_arms app harms] at hentry
    obtain ⟨hothers, hmore, hhandles, harmed⟩ :=
      dataStep_armTimers app hserial hentry (untimed_receive app _ event)
    rw [hnext] at hmore hhandles harmed
    refine ⟨fun k hk => (hothers k hk).trans (hother k hk), hmore, hhandles, ?_⟩
    intro n t ht
    exact (harmed n t ht).imp_left (htasks n t)
  · refine ⟨hother, Nat.le_of_eq hnext.symm, ?_, ?_⟩
    · intro b n hb hn
      obtain ⟨htimer, hchar⟩ := untimed_processEntry app (hentry.symm.trans hb)
      rw [htimer, hchar] at hn
      rcases hn with hn | hn <;> cases hn
    · exact fun n t ht => .inl (htasks n t ht)

end DataStep

/-! ## Which timers the handles belong to -/

section Tracked

variable (app : RtuApplicationLayer) (inputs : List (Input κ ρ))

/-- A data event for connection `k` armed timer `n`. -/
def ArmedFor (n : Nat) (k : κ) : Prop :=
  ∃ before event since, inputs = before ++ .layer (.data event) :: since ∧
    ArmedBy app before event n ∧ event.connection = k

/-- Timer `n` is superseded. -/
def Stale (n : Nat) : Prop :=
  ∃ before event since, inputs = before ++ .layer (.data event) :: since ∧
    ArmedBy app before event n ∧ ∃ input ∈ since, Supersedes event.connection input

/-- The invariant of the timers: a live timer was armed on a Serial transport, a handle that an entry
holds is of a timer of its connection that is not superseded, and a timer whose handle is not in the
entry is superseded. -/
structure Tracked : Prop where
  live : ∀ n t, (stateAfter app inputs).tasks n = some t →
    0 < app.intervalMs ∧ ArmedFor app inputs n t.connection
  held : ∀ k b n, (stateAfter app inputs).buffers k = some b →
    b.timer = some n ∨ b.interCharTimer = some n → ArmedFor app inputs n k ∧ ¬ Stale app inputs n
  lost : ∀ n t b, (stateAfter app inputs).tasks n = some t →
    (stateAfter app inputs).buffers t.connection = some b → HasHandle b n t ∨ Stale app inputs n

variable {app inputs} {input : Input κ ρ} {n : Nat} {k : κ}

theorem ArmedFor.snoc (h : ArmedFor app inputs n k) (input : Input κ ρ) :
    ArmedFor app (inputs ++ [input]) n k := by
  obtain ⟨before, event, since, rfl, harmed, hk⟩ := h
  exact ⟨before, event, since ++ [input], by rw [List.append_assoc]; rfl, harmed, hk⟩

theorem Stale.snoc (h : Stale app inputs n) (input : Input κ ρ) : Stale app (inputs ++ [input]) n := by
  obtain ⟨before, event, since, rfl, harmed, later, hlater, hsupersedes⟩ := h
  exact ⟨before, event, since ++ [input], by rw [List.append_assoc]; rfl, harmed, later,
    List.mem_append_left _ hlater, hsupersedes⟩

/-- The last input supersedes the timers of its connection. -/
theorem ArmedFor.stale (h : ArmedFor app inputs n k) (hinput : Supersedes k input) :
    Stale app (inputs ++ [input]) n := by
  obtain ⟨before, event, since, rfl, harmed, rfl⟩ := h
  exact ⟨before, event, since ++ [input], by rw [List.append_assoc]; rfl, harmed, input,
    List.mem_append_right _ List.mem_cons_self, hinput⟩

omit [DecidableEq κ] in
/-- How an input sequence with one input more splits at a data event. -/
theorem split_snoc {before since : List (Input κ ρ)} {event : DataEvent κ ρ}
    (h : inputs ++ [input] = before ++ .layer (.data event) :: since) :
    (since = [] ∧ inputs = before ∧ input = .layer (.data event)) ∨
      ∃ since', since = since' ++ [input] ∧ inputs = before ++ .layer (.data event) :: since' := by
  rcases List.eq_nil_or_concat since with rfl | ⟨since', last, rfl⟩
  · obtain ⟨hinputs, hlast⟩ := List.append_inj' h rfl
    cases hlast
    exact .inl ⟨rfl, hinputs, rfl⟩
  · rw [List.concat_eq_append] at h ⊢
    rw [← List.cons_append, ← List.append_assoc] at h
    obtain ⟨hinputs, hlast⟩ := List.append_inj' h rfl
    cases hlast
    exact .inr ⟨since', rfl, hinputs⟩

/-- What was armed, was armed before the last input or by it. -/
theorem ArmedFor.of_snoc (h : ArmedFor app (inputs ++ [input]) n k) :
    ArmedFor app inputs n k ∨ ∃ event, input = .layer (.data event) ∧ event.connection = k ∧
      ArmedBy app inputs event n := by
  obtain ⟨before, event, since, hsplit, harmed, hk⟩ := h
  rcases split_snoc hsplit with ⟨-, rfl, rfl⟩ | ⟨since', -, hinputs⟩
  · exact .inr ⟨event, rfl, hk, harmed⟩
  · exact .inl ⟨before, event, since', hinputs, harmed, hk⟩

/-- What is superseded, was so before the last input or is by it. -/
theorem Stale.of_snoc (h : Stale app (inputs ++ [input]) n) :
    Stale app inputs n ∨ ∃ k, ArmedFor app inputs n k ∧ Supersedes k input := by
  obtain ⟨before, event, since, hsplit, harmed, later, hlater, hsupersedes⟩ := h
  rcases split_snoc hsplit with ⟨rfl, -, -⟩ | ⟨since', rfl, hinputs⟩
  · cases hlater
  · rcases List.mem_append.mp hlater with hlater | hlater
    · exact .inl ⟨before, event, since', hinputs, harmed, later, hlater, hsupersedes⟩
    · rw [List.mem_singleton.mp hlater] at hsupersedes
      exact .inr ⟨event.connection, ⟨before, event, since', hinputs, harmed, rfl⟩, hsupersedes⟩

/-- Timers are numbered in the order they are armed. -/
theorem nextTask_le_step (app : RtuApplicationLayer) (s : State κ ρ) (input : Input κ ρ) :
    s.nextTask ≤ (step app s input).1.nextTask := by
  cases input with
  | layer input =>
    cases input with
    | data event => exact (dataStep_processDataEvent app s event).next
    | connectionClose connection => exact Nat.le_refl _
    | flush => exact Nat.le_refl _
  | timer task =>
    cases htask : s.tasks task with
    | none =>
      simp only [step_timer_gone app htask, Nat.le_refl]
    | some t =>
      rw [step_timer app htask]
      cases t <;> exact Nat.le_refl _

theorem not_armedFor_nil : ¬ ArmedFor app ([] : List (Input κ ρ)) n k := by
  rintro ⟨before, event, since, hsplit, -⟩
  cases before <;> cases hsplit

theorem ArmedFor.lt_nextTask (h : ArmedFor app inputs n k) : n < (stateAfter app inputs).nextTask := by
  induction inputs using List.reverseRecOn with
  | nil => exact absurd h not_armedFor_nil
  | append_singleton inputs input ih =>
    rcases h.of_snoc with h | ⟨event, rfl, -, harmed⟩
    · rw [stateAfter_snoc]
      exact Nat.lt_of_lt_of_le (ih h) (nextTask_le_step app _ input)
    · exact harmed.2

theorem Stale.armedFor (h : Stale app inputs n) : ∃ k, ArmedFor app inputs n k := by
  obtain ⟨before, event, since, hsplit, harmed, -⟩ := h
  exact ⟨event.connection, before, event, since, hsplit, harmed, rfl⟩

/-- A timer is armed for one connection. -/
theorem ArmedFor.unique {k' : κ} (h : ArmedFor app inputs n k) (h' : ArmedFor app inputs n k') :
    k = k' := by
  induction inputs using List.reverseRecOn with
  | nil => exact absurd h not_armedFor_nil
  | append_singleton inputs input ih =>
    have hnew : ∀ {k event}, ArmedFor app inputs n k → ¬ ArmedBy app inputs event n :=
      fun hold harmed => Nat.not_lt.mpr harmed.1 hold.lt_nextTask
    rcases h.of_snoc with hold | ⟨event, hevent, hk, harmed⟩
    · rcases h'.of_snoc with hold' | ⟨event, -, -, harmed⟩
      · exact ih hold hold'
      · exact absurd harmed (hnew hold)
    · rcases h'.of_snoc with hold' | ⟨event', hevent', hk', -⟩
      · exact absurd harmed (hnew hold')
      · cases hevent.symm.trans hevent'
        exact hk.symm.trans hk'

/-- A timer that runs leaves the other connections alone. -/
theorem buffers_runTimer_of_ne (app : RtuApplicationLayer) (s : State κ ρ) (n : Nat)
    {task : TimerTask κ ρ} {k : κ} (hk : k ≠ task.connection) :
    (runTimer app (s.abort (some n)) task).1.buffers k = s.buffers k := by
  cases task with
  | interFrame connection response => exact buffers_setBuffer_of_ne _ hk _
  | interChar connection => exact buffers_setBuffer_of_ne _ hk _

/-- At t3.5 a Serial transport is left with no entry. -/
theorem buffers_interFrame {app : RtuApplicationLayer} (hserial : 0 < app.intervalMs) {s : State κ ρ}
    (hs : Pools s) (n : Nat) (connection : κ) (response : ρ) :
    (runTimer app (s.abort (some n)) (.interFrame connection response)).1.buffers connection = none := by
  have hstrict : app.strict = true := decide_eq_true hserial
  simp only [runTimer, buffers_setBuffer, buffers_abort, hstrict]
  exact flushPool_strict app response connection (hs connection)

/-- At t1.5 the entry is marked. -/
theorem buffers_interChar (app : RtuApplicationLayer) (s : State κ ρ) (n : Nat) (connection : κ) :
    (runTimer app (s.abort (some n)) (.interChar connection : TimerTask κ ρ)).1.buffers connection =
      (s.buffers connection).map fun b => { b with t15Expired := true } := by
  simp only [runTimer, buffers_setBuffer, buffers_abort]

/-- An input that keeps the handles of the entries it leaves. -/
theorem Tracked.keep (h : Tracked app inputs)
    (htasks : ∀ n t, (step app (stateAfter app inputs) input).1.tasks n = some t →
      (stateAfter app inputs).tasks n = some t)
    (hbuffers : ∀ k b', (step app (stateAfter app inputs) input).1.buffers k = some b' →
      ¬ Supersedes k input ∧ ∃ b, (stateAfter app inputs).buffers k = some b ∧
        b'.timer = b.timer ∧ b'.interCharTimer = b.interCharTimer) :
    Tracked app (inputs ++ [input]) := by
  rw [← stateAfter_snoc] at htasks hbuffers
  refine ⟨?_, ?_, ?_⟩
  · intro n t ht
    obtain ⟨hserial, harmed⟩ := h.live n t (htasks n t ht)
    exact ⟨hserial, harmed.snoc input⟩
  · intro k b' n hb' hn
    obtain ⟨hnot, b, hb, htimer, hchar⟩ := hbuffers k b' hb'
    rw [htimer, hchar] at hn
    obtain ⟨harmed, hfresh⟩ := h.held k b n hb hn
    refine ⟨harmed.snoc input, ?_⟩
    intro hstale
    rcases hstale.of_snoc with hold | ⟨k', harmed', hsupersedes⟩
    · exact hfresh hold
    · rw [← harmed.unique harmed'] at hsupersedes
      exact hnot hsupersedes
  · intro n t b' ht hb'
    obtain ⟨-, b, hb, htimer, hchar⟩ := hbuffers t.connection b' hb'
    rcases h.lost n t b (htasks n t ht) hb with hhandle | hstale
    · refine .inl ?_
      cases t with
      | interFrame connection response => exact htimer.trans hhandle
      | interChar connection => exact hchar.trans hhandle
    · exact .inr (hstale.snoc input)

/-- A data event supersedes the timers of its connection, and its entry holds the handles of the new
ones. -/
theorem Tracked.data (h : Tracked app inputs) (event : DataEvent κ ρ) :
    Tracked app (inputs ++ [.layer (.data event)]) := by
  have hstep := dataStep_processDataEvent app (stateAfter app inputs) event
  have hnext : stateAfter app (inputs ++ [.layer (.data event)]) =
      (processDataEvent app (stateAfter app inputs) event).1 := stateAfter_snoc app inputs _
  rw [← hnext] at hstep
  have hnew : ∀ {n}, (stateAfter app inputs).nextTask ≤ n → ¬ ∃ k, ArmedFor app inputs n k := by
    rintro n hn ⟨k, harmed⟩
    exact Nat.not_lt.mpr hn harmed.lt_nextTask
  have harms : ∀ {n k}, (stateAfter app inputs).nextTask ≤ n ∧
      n < (stateAfter app (inputs ++ [.layer (.data event)])).nextTask → k = event.connection →
      ArmedFor app (inputs ++ [.layer (.data event)]) n k :=
    fun hn hk => ⟨inputs, event, [], rfl, hn, hk.symm⟩
  refine ⟨?_, ?_, ?_⟩
  · intro n t ht
    rcases hstep.tasks n t ht with hold | ⟨hserial, hn, hk, -⟩
    · obtain ⟨hserial, harmed⟩ := h.live n t hold
      exact ⟨hserial, harmed.snoc _⟩
    · exact ⟨hserial, harms hn hk⟩
  · intro k b n hb hn
    by_cases hk : k = event.connection
    · rw [hk] at hb
      have hrange := hstep.handles b n hb hn
      refine ⟨harms hrange hk, ?_⟩
      intro hstale
      rcases hstale.of_snoc with hold | ⟨k', harmed', -⟩
      · exact hnew hrange.1 hold.armedFor
      · exact hnew hrange.1 ⟨k', harmed'⟩
    · rw [hstep.other k hk] at hb
      obtain ⟨harmed, hfresh⟩ := h.held k b n hb hn
      refine ⟨harmed.snoc _, ?_⟩
      intro hstale
      rcases hstale.of_snoc with hold | ⟨k', harmed', hsupersedes⟩
      · exact hfresh hold
      · rw [← harmed.unique harmed'] at hsupersedes
        exact hk hsupersedes.symm
  · intro n t b ht hb
    rcases hstep.tasks n t ht with hold | ⟨-, -, hk, b', hb', hhandle⟩
    · by_cases hk : t.connection = event.connection
      · exact .inr ((h.live n t hold).2.stale hk.symm)
      · rw [hstep.other _ hk] at hb
        exact (h.lost n t b hold hb).imp_right (·.snoc _)
    · rw [hk] at hb
      cases hb.symm.trans hb'
      exact .inl hhandle

/-- An expiry leaves no entry at t3.5, and the handles of the entry at t1.5. -/
theorem Tracked.timer (h : Tracked app inputs) (n : Nat) : Tracked app (inputs ++ [.timer n]) := by
  cases htask : (stateAfter app inputs).tasks n with
  | none =>
    refine h.keep ?_ ?_
    · intro n' t ht
      rwa [step_timer_gone app htask] at ht
    · intro k b hb
      rw [step_timer_gone app htask] at hb
      exact ⟨id, b, hb, rfl, rfl⟩
  | some task =>
    have hserial := (h.live n task htask).1
    refine h.keep ?_ ?_
    · intro n' t ht
      rw [step_timer app htask] at ht
      have habort : ((stateAfter app inputs).abort (some n)).tasks n' = some t := by
        cases task <;> exact ht
      exact tasks_abort habort
    · intro k b' hb'
      rw [step_timer app htask] at hb'
      refine ⟨id, ?_⟩
      by_cases hk : k = task.connection
      · rw [hk] at hb'
        cases task with
        | interFrame connection response =>
          cases (buffers_interFrame hserial (pools_stateAfter app inputs) n connection response).symm.trans
            hb'
        | interChar connection =>
          obtain ⟨b, hb, rfl⟩ := Option.map_eq_some_iff.mp
            ((buffers_interChar app _ n connection).symm.trans hb')
          exact ⟨b, hk ▸ hb, rfl, rfl⟩
      · rw [buffers_runTimer_of_ne app _ n hk] at hb'
        exact ⟨b', hb', rfl, rfl⟩

/-- **Every run keeps the invariant of the timers.** -/
theorem tracked (app : RtuApplicationLayer) (inputs : List (Input κ ρ)) : Tracked app inputs := by
  induction inputs using List.reverseRecOn with
  | nil =>
    refine ⟨?_, ?_, ?_⟩
    · intro n t ht
      cases ht
    · intro k b n hb
      cases hb
    · intro n t b ht
      cases ht
  | append_singleton inputs input ih =>
    cases input with
    | layer input =>
      cases input with
      | data event => exact ih.data event
      | connectionClose connection =>
        refine ih.keep (fun n t ht => ht) ?_
        intro k b hb
        by_cases hk : k = connection
        · subst hk
          cases (buffers_setBuffer ..).symm.trans hb
        · exact ⟨fun heq => hk heq.symm, b, (buffers_setBuffer_of_ne _ hk none).symm.trans hb, rfl, rfl⟩
      | flush =>
        refine ih.keep (fun n t ht => ht) ?_
        intro k b hb
        cases hb
    | timer n => exact ih.timer n

end Tracked

/-! ## Frames and silences -/

section Apart

variable {app : RtuApplicationLayer} {s : State κ ρ} {k : κ}

/-- What waits for connection `k` will not be joined with what it receives next. -/
def Cut (k : κ) (s : State κ ρ) : Prop :=
  (poolOf (s.buffers k)).t15Expired = true ∨ (poolOf (s.buffers k)).asSlice = []

/-- A data event drops the bytes of a silence first. -/
theorem handles_processEntry_cut (hs : Pools s) {event : DataEvent κ ρ} (hcut : Cut event.connection s) :
    Handles event.connection event.data (app.processEntry (s.buffers event.connection) event).1
      (app.processEntry (s.buffers event.connection) event).2 := by
  have hwf := hs event.connection
  cases hexpired : (poolOf (s.buffers event.connection)).t15Expired &&
      !(poolOf (s.buffers event.connection)).isEmpty with
  | true => exact Handles.processEntry app (handles_receive_expired app hwf event hexpired).2
  | false =>
    have hnil : (poolOf (s.buffers event.connection)).asSlice = [] := by
      rcases hcut with hmarked | hnil
      · rw [hmarked, Bool.true_and, Bool.not_eq_false', hwf.isEmpty_iff] at hexpired
        exact List.isEmpty_iff.mp hexpired
      · exact hnil
    have hjoined := handles_processEntry app hwf event
    rwa [hnil] at hjoined

omit [DecidableEq κ] in
theorem Cut.of_buffers (h : Cut k s) {s' : State κ ρ} (hsame : s'.buffers k = s.buffers k) : Cut k s' := by
  rwa [Cut, hsame]

omit [DecidableEq κ] in
theorem cut_of_none {s' : State κ ρ} (hnone : s'.buffers k = none) : Cut k s' := by
  refine .inr ?_
  rw [hnone]
  exact rfl

/-- An expiry cuts its connection. -/
theorem cut_runTimer (hs : Pools s) (hserial : 0 < app.intervalMs) (n : Nat) (task : TimerTask κ ρ) :
    Cut task.connection (runTimer app (s.abort (some n)) task).1 := by
  cases task with
  | interFrame connection response =>
    exact cut_of_none (buffers_interFrame hserial hs n connection response)
  | interChar connection =>
    have hmarked := buffers_interChar app s n connection
    cases hentry : s.buffers connection with
    | none =>
      rw [hentry] at hmarked
      exact cut_of_none hmarked
    | some b =>
      rw [hentry] at hmarked
      refine .inl ?_
      rw [TimerTask.connection, hmarked]
      rfl

/-- The bytes after a data event are those it leaves in its entry. -/
theorem asSlice_processDataEvent (event : DataEvent κ ρ) :
    (poolOf ((processDataEvent app s event).1.buffers event.connection)).asSlice =
      (poolOf (app.processEntry (s.buffers event.connection) event).1).asSlice := by
  unfold processDataEvent
  dsimp only
  split
  · rw [(pool_armTimers app _ event event.connection).2, buffers_setBuffer]
  · rw [buffers_setBuffer]

/-- One input to a connection that is cut. -/
theorem step_apart (hserial : 0 < app.intervalMs) (hs : Pools s) (hcut : Cut k s) (input : Input κ ρ) :
    Cut k (step app s input).1 ∧ received k input = [] ∨
      Consumes (received k input) (poolOf ((step app s input).1.buffers k)).asSlice
        ((step app s input).2.filterMap (rawFor k)) := by
  cases input with
  | layer input =>
    cases input with
    | data event =>
      by_cases hk : event.connection = k
      · subst hk
        refine .inr ?_
        have hread : received event.connection (.layer (.data event) : Input κ ρ) = event.data :=
          if_pos rfl
        have hbytes : (poolOf ((step app s (.layer (.data event))).1.buffers event.connection)).asSlice =
          _ := asSlice_processDataEvent event
        rw [hread, hbytes]
        exact (handles_processEntry_cut hs hcut).consumes
      · have hother := (dataStep_processDataEvent app s event).other k (Ne.symm hk)
        exact .inl ⟨hcut.of_buffers hother, if_neg hk⟩
    | connectionClose connection =>
      refine .inl ⟨?_, rfl⟩
      by_cases hk : k = connection
      · subst hk
        exact cut_of_none (buffers_setBuffer s k none)
      · exact hcut.of_buffers (buffers_setBuffer_of_ne s hk none)
    | flush => exact .inl ⟨cut_of_none rfl, rfl⟩
  | timer n =>
    refine .inl ⟨?_, rfl⟩
    cases htask : s.tasks n with
    | none =>
      rw [step_timer_gone app htask]
      exact hcut
    | some task =>
      rw [step_timer app htask]
      by_cases hk : k = task.connection
      · subst hk
        exact cut_runTimer hs hserial n task
      · exact hcut.of_buffers (buffers_runTimer_of_ne app s n hk)

/-- **No frame reaches over a silence**, whatever the order of data, closes, `flush()` and timers. -/
theorem silences_separate (app : RtuApplicationLayer) (inputs : List (Input κ ρ)) :
    SilencesSeparate app inputs := by
  intro before n task after hexpires
  obtain ⟨rfl, hlive⟩ := hexpires
  have hserial := ((tracked app before).live n task hlive).1
  have hpools := pools_stateAfter app before
  have hone : ∀ (s : State κ ρ) input, Pools s → Pools (step app s input).1 ∧
      Consumes ((poolOf (s.buffers task.connection)).asSlice ++ received task.connection input)
        (poolOf ((step app s input).1.buffers task.connection)).asSlice
        ((step app s input).2.filterMap (rawFor task.connection)) :=
    fun s input hs => ⟨fun k => (step_handles app hs input k).wf,
      (step_handles app hs input task.connection).consumes⟩
  -- up to the expiry, and from it on
  obtain ⟨-, hbefore⟩ := feedAll_consumes hone (before ++ [.timer n]) (s := {}) fun _ => RtuBuffer.wf_new
  have hcut : Cut task.connection (stateAfter app (before ++ [.timer n])) := by
    rw [stateAfter_snoc, step_timer app hlive]
    exact cut_runTimer hpools hserial n task
  obtain ⟨early, late, hparts, hearly, hlate⟩ := feedAll_apart hone
    (fun s input hs hcut => step_apart hserial hs hcut input) after
    (pools_stateAfter app (before ++ [.timer n])) hcut
  obtain ⟨consumed, hstream, hsegments⟩ := hbefore
  have hread : before.flatMap (received task.connection) =
      consumed ++ (poolOf ((stateAfter app (before ++ [.timer n])).buffers task.connection)).asSlice := by
    rw [← List.append_nil (before.flatMap _)]
    rw [List.flatMap_append] at hstream
    exact hstream
  have hraws : (framedFor task.connection (feedAll (step app) {} (before ++ .timer n :: after)).2).map
      (·.raw) = (feedAll (step app) {} (before ++ .timer n :: after)).2.filterMap
        (rawFor task.connection) := List.map_filterMap
  refine ⟨(feedAll (step app) {} (before ++ [.timer n])).2.filterMap (rawFor task.connection) ++ early,
    late, ?_, ?_, hlate⟩
  · rw [hraws, List.append_cons, feedAll_append, List.filterMap_append, List.append_assoc, ← hparts]
    rfl
  · rw [hread]
    exact hsegments.append hearly

end Apart

/-! ## Timers that act on their own bytes -/

section Own

variable {app : RtuApplicationLayer} {inputs : List (Input κ ρ)} {n : Nat} {task : TimerTask κ ρ}

/-- A timer has no effect on an entry that is not there or is already marked, and only there. -/
theorem idle_iff (hserial : 0 < app.intervalMs) {s : State κ ρ} (hs : Pools s)
    (hlive : s.tasks n = some task) :
    Idle app s n ↔ ∀ b, s.buffers task.connection = some b →
      task = .interChar task.connection ∧ b.t15Expired = true := by
  rw [Idle, step_timer app hlive]
  have hsame : ∀ (k : κ) entry, s.buffers k = entry →
      ((s.abort (some n)).setBuffer k entry).buffers = s.buffers := by
    intro k entry hentry
    funext k'
    by_cases hk : k' = k
    · rw [hk, buffers_setBuffer, hentry]
    · rw [buffers_setBuffer_of_ne _ hk, buffers_abort]
  constructor
  · rintro ⟨hbuffers, -⟩ b hb
    have hentry := (congrFun hbuffers task.connection).trans hb
    cases task with
    | interFrame connection response =>
      cases (buffers_interFrame hserial hs n connection response).symm.trans hentry
    | interChar connection =>
      refine ⟨rfl, ?_⟩
      have hmarked := (buffers_interChar app s n connection).symm.trans hentry
      have hb' : s.buffers connection = some b := hb
      rw [hb'] at hmarked
      exact congrArg RtuBuffer.t15Expired (Option.some.inj hmarked).symm
  · intro hfinds
    cases task with
    | interFrame connection response =>
      have hnone : s.buffers connection = none := by
        apply Option.eq_none_iff_forall_ne_some.mpr
        intro b hb
        cases (hfinds b hb).1
      have hflushed : app.flushPool response connection app.strict
          ((s.abort (some n)).buffers connection) = (none, []) := by
        rw [buffers_abort, hnone]
        rfl
      simp only [runTimer, hflushed, and_true]
      exact hsame connection none hnone
    | interChar connection =>
      refine ⟨hsame connection _ ?_, rfl⟩
      rw [buffers_abort]
      cases hentry : s.buffers connection with
      | none => rfl
      | some b =>
        have hmarked := (hfinds b hentry).2
        cases b
        cases hmarked
        rfl

end Own

/-- **Timers act on their own bytes.** For every run of an RTU layer, of data chunks, closes,
`flush()` calls and timers in any order: no timer has an effect once a later data event, `flush()` or
close of its connection has superseded it, and no frame holds bytes from both sides of an expiry,
exactly when every timer that expires finds its handle in the entry of its connection, or no entry, or
(at t1.5) the mark already set. -/
theorem timers_own_iff (app : RtuApplicationLayer) (inputs : List (Input κ ρ)) :
    (TimersOwn app inputs ∧ SilencesSeparate app inputs) ↔ HandlesKept app inputs := by
  constructor
  · rintro ⟨hown, -⟩ before n task after hexpires
    obtain ⟨rfl, hlive⟩ := hexpires
    have htracked := tracked app before
    have hserial := (htracked.live n task hlive).1
    have hfound : ∀ b, (stateAfter app before).buffers task.connection = some b →
        HasHandle b n task ∨ (task = .interChar task.connection ∧ b.t15Expired = true) := by
      intro b hb
      rcases htracked.lost n task b hlive hb with hhandle | hstale
      · exact .inl hhandle
      · obtain ⟨before', event, since, rfl, harmed, hsuperseded⟩ := hstale
        have hidle := hown before' event since n after rfl harmed hsuperseded
        exact .inr ((idle_iff hserial (pools_stateAfter app _) hlive).mp hidle b hb)
    cases task with
    | interFrame connection response =>
      intro b hb
      rcases hfound b hb with hhandle | ⟨heq, -⟩
      · exact hhandle
      · cases heq
    | interChar connection =>
      intro b hb
      exact (hfound b hb).imp_right (·.2)
  · intro hkept
    refine ⟨?_, silences_separate app inputs⟩
    intro before event since n after hrun harmed hsuperseded
    have htracked := tracked app (before ++ .layer (.data event) :: since)
    have hstale : Stale app (before ++ .layer (.data event) :: since) n :=
      ⟨before, event, since, rfl, harmed, hsuperseded⟩
    cases hlive : (stateAfter app (before ++ .layer (.data event) :: since)).tasks n with
    | none =>
      rw [Idle, step_timer_gone app hlive]
      exact ⟨rfl, rfl⟩
    | some task =>
      have hfinds := hkept _ n task after ⟨hrun, hlive⟩
      refine (idle_iff (htracked.live n task hlive).1 (pools_stateAfter app _) hlive).mpr ?_
      intro b hb
      cases task with
      | interFrame connection response =>
        exact absurd hstale (htracked.held _ b n hb (.inl (hfinds b hb))).2
      | interChar connection =>
        rcases hfinds b hb with hhandle | hmarked
        · exact absurd hstale (htracked.held _ b n hb (.inr hhandle)).2
        · exact ⟨rfl, hmarked⟩

/-- Two requests with a `flush()` in between: the t3.5 timer of the first expires into the bytes of the
second. -/
def flushedRun : List (Input Unit Unit) :=
  [.layer (.data ⟨[1, 6], (), ()⟩), .layer .flush, .layer (.data ⟨[1, 6, 0], (), ()⟩), .timer 0]

/-- The t3.5 timer that a `flush()` leaves armed drops the bytes that arrive after it. -/
theorem flush_leaves_timer :
    ¬ TimersOwn (.new .serial (5, 2) (some .slave)) flushedRun := by
  intro hown
  have hidle := hown [] ⟨[1, 6], (), ()⟩ [.layer .flush, .layer (.data ⟨[1, 6, 0], (), ()⟩)] 0 [] rfl
    ⟨Nat.le_refl _, by decide +kernel⟩ ⟨_, List.mem_cons_self, trivial⟩
  have herror : (step (.new .serial (5, 2) (some .slave)) (stateAfter (.new .serial (5, 2) (some .slave))
      ([] ++ .layer (.data ⟨[1, 6], (), ()⟩) ::
        [.layer .flush, .layer (.data ⟨[1, 6, 0], (), ()⟩)])) (.timer 0)).2 =
      ([.framingError .incompleteFrame] : List (Emit Unit Unit)) := by decide +kernel
  cases herror.symm.trans hidle.2

end RsModbus.Rtu
