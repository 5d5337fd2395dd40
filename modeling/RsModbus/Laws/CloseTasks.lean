import RsModbus.Application.CloseTasks
import RsModbus.Laws.RtuTimers

/-!
# What the ends of connections leave behind

* `no_entry_of_closesBehind`: when every close is received behind the data of its connection, or the
  data it overtook leave nothing pending, no layer keeps an entry of a connection that has ended.
* `closeTask_overtakes`: in all three layers the close task may overtake a last partial frame, whose
  entry then stays.
-/

namespace RsModbus

open Library

variable {κ ρ : Type} [DecidableEq κ]

/-! ## Order -/

/-- The data events of a connection that has just lost its entry, when these leave it without one:
`inHand` is being framed and `waiting` is still to be framed. RTU frames the first in several
steps, and on Serial its timers decide when bytes are framed at all. -/
def Layer.Leaves : Layer → (inHand waiting : List (DataEvent κ ρ)) → Prop
  | .tcp, inHand, waiting => (feedAll Tcp.processEntry none (inHand ++ waiting)).1 = none
  | .rtu app, inHand, waiting =>
    inHand = [] ∧
      (waiting = [] ∨ app.intervalMs = 0 ∧ (feedAll app.processEntry none waiting).1 = none)
  | .ascii lenientHex, inHand, waiting =>
    (feedAll (Ascii.driveEntry lenientHex) none (inHand ++ waiting)).1 = none

namespace CloseTasks

variable {layer : Layer}

/-- Both tasks have consumed everything published. -/
def Consumed (s : CloseTasks κ ρ layer) : Prop := s.events = [] ∧ s.closes = [] ∧ s.inHand = none

/-- The physical layer publishes the data events of a connection before its close. -/
def PublishesInOrder (s : CloseTasks κ ρ layer) : CloseLabel κ ρ → Prop
  | .publish event => event.connection ∉ s.ended
  | _ => True

/-- The close task receives the close of a connection only when the data events of the connection that
the data task has not finished leave nothing behind. -/
def ClosesBehind (s : CloseTasks κ ρ layer) : CloseLabel κ ρ → Prop
  | .receiveClose => ∀ k, s.closes.head? = some k →
    layer.Leaves (s.inHand.toList.filter (·.connection = k)) (s.events.filter (·.connection = k))
  | _ => True

end CloseTasks

/-! ## Entries -/

/-- The data events `pending` of connection `k`, framed from what the map has for `k` now, leave no
entry. With timers running there may be no such events. -/
def Layer.Settled (k : κ) : (layer : Layer) → layer.State κ ρ → List (DataEvent κ ρ) → Prop
  | .tcp, buffers, pending => (feedAll Tcp.processEntry (buffers k) pending).1 = none
  | .rtu app, s, pending =>
    (feedAll app.processEntry (s.buffers k) pending).1 = none ∧ (0 < app.intervalMs → pending = [])
  | .ascii lenientHex, states, pending =>
    (feedAll (Ascii.driveEntry lenientHex) (states k) pending).1 = none

namespace Layer

variable {layer : Layer} {map : layer.State κ ρ} {k : κ} {pending : List (DataEvent κ ρ)}

omit [DecidableEq κ] in
theorem hasEntry_of_settled (h : layer.Settled k map []) : layer.hasEntry map k = false := by
  cases layer with
  | tcp => exact Option.isSome_eq_false_iff.mpr (Option.isNone_iff_eq_none.mpr h)
  | rtu app => exact Option.isSome_eq_false_iff.mpr (Option.isNone_iff_eq_none.mpr h.1)
  | ascii lenientHex => exact Option.isSome_eq_false_iff.mpr (Option.isNone_iff_eq_none.mpr h)

/-- The end of another connection touches no entry of `k`. -/
theorem settled_close_of_ne {connection : κ} (hne : k ≠ connection) (h : layer.Settled k map pending) :
    layer.Settled k (layer.react map (.layer (.connectionClose connection))) pending := by
  cases layer with
  | tcp => simpa only [Settled, react, Tcp.step, Function.update_of_ne hne] using h
  | rtu app => simpa only [Settled, react, Rtu.step, Rtu.buffers_setBuffer_of_ne _ hne] using h
  | ascii lenientHex => simpa only [Settled, react, Ascii.step, Function.update_of_ne hne] using h

/-- The end of `k`, with the data events that the data task has not finished. -/
theorem settled_close {inHand waiting : List (DataEvent κ ρ)} (h : layer.Leaves inHand waiting) :
    layer.Settled k (layer.react map (.layer (.connectionClose k))) (inHand ++ waiting) := by
  cases layer with
  | tcp => simpa only [Settled, react, Tcp.step, Function.update_self, Leaves] using h
  | rtu app =>
    obtain ⟨rfl, rfl | ⟨hnet, hnone⟩⟩ := h
    · simp [Settled, react, Rtu.step, Rtu.buffers_setBuffer]
    · simpa [Settled, react, Rtu.step, Rtu.buffers_setBuffer, hnet] using hnone
  | ascii lenientHex => simpa only [Settled, react, Ascii.step, Function.update_self, Leaves] using h

/-- A data event of another connection touches no entry of `k`. -/
theorem settled_data_of_ne {event : DataEvent κ ρ} (hne : k ≠ event.connection)
    (h : layer.Settled k map pending) :
    layer.Settled k (layer.react map (.layer (.data event))) pending := by
  cases layer with
  | tcp =>
    simpa only [Settled, react, Tcp.step, Tcp.processDataEvent, Function.update_of_ne hne] using h
  | rtu app =>
    simpa only [Settled, react, Rtu.step, (Rtu.dataStep_processDataEvent app map event).other k hne]
      using h
  | ascii lenientHex =>
    simpa only [Settled, react, Ascii.step, Ascii.driveFsm, Function.update_of_ne hne] using h

/-- A data event of `k` is framed. -/
theorem settled_data {event : DataEvent κ ρ} (hk : event.connection = k)
    (h : layer.Settled k map (event :: pending)) :
    layer.Settled k (layer.react map (.layer (.data event))) pending := by
  subst hk
  cases layer with
  | tcp =>
    simpa only [Settled, react, Tcp.step, Tcp.processDataEvent, Function.update_self, feedAll_cons]
      using h
  | rtu app =>
    obtain ⟨hnone, hserial⟩ := h
    have hnet : ¬ 0 < app.intervalMs := fun hserial' => nomatch hserial hserial'
    have harms : ¬ app.arms (map.buffers event.connection) event = true :=
      fun harms => hnet ((Rtu.arms_iff app).mp harms).1
    refine ⟨?_, fun hserial' => absurd hserial' hnet⟩
    simp only [react, Rtu.step, Rtu.processDataEvent, if_neg harms, Rtu.buffers_setBuffer]
    exact hnone
  | ascii lenientHex =>
    simpa only [Settled, react, Ascii.step, Ascii.driveFsm, Function.update_self, feedAll_cons]
      using h

end Layer

/-- No timer is armed on a Net transport. -/
def Layer.Untimed : (layer : Layer) → layer.State κ ρ → Prop
  | .rtu app, s => app.intervalMs = 0 → ∀ n, s.tasks n = none
  | _, _ => True

namespace Layer

variable {layer : Layer} {map : layer.State κ ρ} {k : κ} {pending : List (DataEvent κ ρ)}

theorem untimed_data (h : layer.Untimed map) (event : DataEvent κ ρ) :
    layer.Untimed (layer.react map (.layer (.data event))) := by
  cases layer with
  | tcp => trivial
  | rtu app =>
    intro hnet n
    cases htask : (Rtu.processDataEvent app map event).1.tasks n with
    | none => exact htask
    | some t =>
      rcases (Rtu.dataStep_processDataEvent app map event).tasks n t htask with hold | ⟨hserial, -⟩
      · rw [h hnet n] at hold
        cases hold
      · omega
  | ascii lenientHex => trivial

theorem untimed_close (h : layer.Untimed map) (connection : κ) :
    layer.Untimed (layer.react map (.layer (.connectionClose connection))) := by
  cases layer with
  | tcp => trivial
  | rtu app => exact h
  | ascii lenientHex => trivial

theorem untimed_timer (h : layer.Untimed map) (n : Nat) :
    layer.Untimed (layer.react map (.timer n)) := by
  cases layer with
  | tcp => trivial
  | rtu app =>
    intro hnet
    have hidle : Rtu.step app map (.timer n) = (map, []) := by
      simp only [Rtu.step, h hnet n]
    simp only [react, hidle]
    exact h hnet
  | ascii lenientHex => trivial

/-- A timer that fires creates no entry. -/
theorem settled_timer (huntimed : layer.Untimed map) (n : Nat) (h : layer.Settled k map pending) :
    layer.Settled k (layer.react map (.timer n)) pending := by
  cases layer with
  | tcp => exact h
  | rtu app =>
    obtain ⟨hnone, hserial⟩ := h
    cases htask : map.tasks n with
    | none =>
      have hidle : Rtu.step app map (.timer n) = (map, []) := by simp only [Rtu.step, htask]
      simp only [react, hidle]
      exact ⟨hnone, hserial⟩
    | some task =>
      have htimed : 0 < app.intervalMs := by
        refine Nat.pos_of_ne_zero ?_
        intro hnet
        rw [huntimed hnet n] at htask
        cases htask
      obtain rfl := hserial htimed
      refine ⟨?_, hserial⟩
      simp only [react, Rtu.step, htask, feedAll_nil]
      by_cases hk : k = task.connection
      · have hentry : map.buffers task.connection = none := hk ▸ hnone
        cases task with
        | interFrame connection response =>
          simp only [hk, Rtu.runTimer, Rtu.TimerTask.connection, Rtu.buffers_setBuffer,
            Rtu.buffers_abort] at hentry ⊢
          rw [hentry]
          rfl
        | interChar connection =>
          simp only [hk, Rtu.runTimer, Rtu.TimerTask.connection, Rtu.buffers_setBuffer,
            Rtu.buffers_abort] at hentry ⊢
          rw [hentry]
          rfl
      · rw [Rtu.buffers_runTimer_of_ne app map n hk]
        exact hnone
  | ascii lenientHex => exact h

end Layer

/-! ## Runs -/

namespace CloseTasks

variable {layer : Layer} {s s' : CloseTasks κ ρ layer} {label : CloseLabel κ ρ} {k : κ}

/-- The data events of a connection that the data task has not finished. -/
def unfinished (s : CloseTasks κ ρ layer) (k : κ) : List (DataEvent κ ρ) :=
  s.inHand.toList.filter (·.connection = k) ++ s.events.filter (·.connection = k)

/-- A connection that has ended still has its close in the channel, or what is unfinished of its data
leaves no entry. -/
structure Cleared (s : CloseTasks κ ρ layer) : Prop where
  untimed : layer.Untimed s.map
  settled : ∀ k ∈ s.ended, k ∈ s.closes ∨ layer.Settled k s.map (s.unfinished k)

theorem cleared_init : Cleared ({} : CloseTasks κ ρ layer) := by
  refine ⟨?_, fun k hk => nomatch hk⟩
  cases layer with
  | tcp => trivial
  | rtu app => exact fun _ _ => rfl
  | ascii lenientHex => trivial

theorem Cleared.step (h : s.Cleared) (horder : s.PublishesInOrder label) (hbehind : s.ClosesBehind label)
    (hstep : s.step label = some s') : s'.Cleared := by
  cases label with
  | publish event =>
    cases hstep
    refine ⟨h.untimed, ?_⟩
    intro k hk
    have hne : event.connection ≠ k := fun heq => horder (heq ▸ hk)
    have hsame : unfinished { s with events := s.events ++ [event] } k = s.unfinished k := by
      simp [unfinished, hne]
    rw [hsame]
    exact h.settled k hk
  | publishClose connection =>
    cases hstep
    refine ⟨h.untimed, ?_⟩
    intro k hk
    rcases List.mem_append.mp hk with hk | hk
    · exact (h.settled k hk).imp_left (List.mem_append_left _)
    · exact .inl (List.mem_append_right _ hk)
  | receiveData =>
    obtain ⟨events, closes, ended, inHand, map⟩ := s
    cases inHand with
    | some event => cases hstep
    | none =>
      cases events with
      | nil => cases hstep
      | cons event rest =>
        cases hstep
        refine ⟨h.untimed, ?_⟩
        intro k hk
        have hsettled := h.settled k hk
        have hsame : unfinished ⟨rest, closes, ended, some event, map⟩ k =
            unfinished ⟨event :: rest, closes, ended, none, map⟩ k := by
          by_cases hconn : event.connection = k <;> simp [unfinished, hconn]
        rw [hsame]
        exact hsettled
  | process =>
    obtain ⟨event, hhand, rfl⟩ := Option.map_eq_some_iff.mp hstep
    refine ⟨Layer.untimed_data h.untimed event, ?_⟩
    intro k hk
    refine (h.settled k hk).imp_right ?_
    intro hsettled
    by_cases hconn : event.connection = k
    · refine Layer.settled_data hconn ?_
      simpa [unfinished, hhand, hconn] using hsettled
    · refine Layer.settled_data_of_ne (Ne.symm hconn) ?_
      simpa [unfinished, hhand, hconn] using hsettled
  | receiveClose =>
    obtain ⟨events, closes, ended, inHand, map⟩ := s
    cases closes with
    | nil => cases hstep
    | cons connection rest =>
      cases hstep
      refine ⟨Layer.untimed_close h.untimed connection, ?_⟩
      intro k hk
      by_cases heq : k = connection
      · subst heq
        exact .inr (Layer.settled_close (hbehind k rfl))
      · refine (h.settled k hk).imp ?_ (Layer.settled_close_of_ne heq)
        intro hmem
        exact (List.mem_cons.mp hmem).resolve_left heq
  | timer n =>
    cases hstep
    refine ⟨Layer.untimed_timer h.untimed n, ?_⟩
    intro k hk
    exact (h.settled k hk).imp_right (Layer.settled_timer h.untimed n)

theorem Cleared.hasEntry (h : s.Cleared) (hconsumed : s.Consumed) (hk : k ∈ s.ended) :
    layer.hasEntry s.map k = false := by
  obtain ⟨hevents, hcloses, hhand⟩ := hconsumed
  rcases h.settled k hk with hclose | hsettled
  · rw [hcloses] at hclose
    cases hclose
  · refine Layer.hasEntry_of_settled ?_
    simpa [unfinished, hevents, hhand] using hsettled

/-- **No framing state survives its connection**, when every close is received behind the data events
of its connection, or those it overtook leave nothing. -/
theorem no_entry_of_closesBehind {labels : List (CloseLabel κ ρ)}
    (run : exec step ({} : CloseTasks κ ρ layer) labels = some s)
    (order : Meets step PublishesInOrder ({} : CloseTasks κ ρ layer) labels)
    (behind : Meets step ClosesBehind ({} : CloseTasks κ ρ layer) labels)
    (hconsumed : s.Consumed) (hk : k ∈ s.ended) : layer.hasEntry s.map k = false := by
  have hcleared : s.Cleared :=
    exec_invariant (C := fun s label => PublishesInOrder s label ∧ ClosesBehind s label)
      (fun s label t hs hlabel hstep => hs.step hlabel.1 hlabel.2 hstep) run (order.and behind)
      cleared_init
  exact hcleared.hasEntry hconsumed hk

/-- Connection 7 sends a colon and ends; then the tasks run. -/
def colonThen (tasks : List (CloseLabel Nat Unit)) : List (CloseLabel Nat Unit) :=
  .publish ⟨[0x3a], (), 7⟩ :: .publishClose 7 :: tasks

theorem no_entry_colon : ∃ s : CloseTasks Nat Unit .tcp,
    exec step {} (colonThen [.receiveData, .process, .receiveClose]) = some s ∧
      Layer.tcp.hasEntry s.map 7 = false := by
  have run : exec step ({} : CloseTasks Nat Unit .tcp)
      (colonThen [.receiveData, .process, .receiveClose]) = some _ := rfl
  refine ⟨_, run, no_entry_of_closesBehind run ?_ ?_ ⟨rfl, rfl, rfl⟩ (List.mem_singleton_self 7)⟩
  · simp [colonThen, Meets, step, PublishesInOrder]
  · simp [colonThen, Meets, step, ClosesBehind, Layer.Leaves]

/-- The close task takes the close of connection 7 first, and the entry of the connection stays. -/
def EntryStays (layer : Layer) : Prop :=
  ∃ s : CloseTasks Nat Unit layer,
    exec step {} (colonThen [.receiveClose, .receiveData, .process]) = some s ∧
      Meets step PublishesInOrder ({} : CloseTasks Nat Unit layer)
        (colonThen [.receiveClose, .receiveData, .process]) ∧
      s.Consumed ∧ 7 ∈ s.ended ∧ layer.hasEntry s.map 7 = true

theorem entryStays_of_hasEntry {layer : Layer} {s : CloseTasks Nat Unit layer}
    (run : exec step {} (colonThen [.receiveClose, .receiveData, .process]) = some s)
    (hrest : s.Consumed ∧ 7 ∈ s.ended) (hentry : layer.hasEntry s.map 7 = true) : EntryStays layer := by
  refine ⟨s, run, ?_, hrest.1, hrest.2, hentry⟩
  simp [colonThen, Meets, step, PublishesInOrder]

theorem closeTask_overtakes :
    EntryStays .tcp ∧ EntryStays (.rtu (.new .net (0, 0) none)) ∧ EntryStays (.ascii false) := by
  refine ⟨entryStays_of_hasEntry rfl ⟨⟨rfl, rfl, rfl⟩, List.mem_singleton_self 7⟩ ?_,
    entryStays_of_hasEntry rfl ⟨⟨rfl, rfl, rfl⟩, List.mem_singleton_self 7⟩ ?_,
    entryStays_of_hasEntry rfl ⟨⟨rfl, rfl, rfl⟩, List.mem_singleton_self 7⟩ ?_⟩
  · decide
  · decide +kernel
  · decide

end CloseTasks

end RsModbus
