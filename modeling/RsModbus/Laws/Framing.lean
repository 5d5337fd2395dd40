import RsModbus.Library.Delimited
import RsModbus.Types

/-!
# Framing over connections

Laws the application layers share. A **reader** (`Reader`) is the part of a layer that belongs to
one connection: a step on data events whose state stands for the bytes retained, simulated by a
splitter that is `Delimited` for the layer's frames. A layer holds one such state per connection.

* `Reader.delivers`: however the concatenated frames of each connection are cut into data events,
  and however the events of different connections interleave, the layer publishes for each
  connection exactly its frames in order, no framing error, and retains nothing.
-/

namespace RsModbus

open Library

variable {κ ρ σ : Type} [DecidableEq κ]

/-- The data of a connection's events, in order. -/
def streamOf (k : κ) (events : List (DataEvent κ ρ)) : Bytes :=
  ((events.filter (·.connection = k)).map (·.data)).flatten

/-- The reader of one connection: `step` is its reaction to a data event. -/
structure Reader (step : σ → DataEvent κ ρ → σ × List (Emit κ ρ))
    (frame : Bytes → FramedDataUnit → Prop) where
  /-- The splitter, given the connection and the reply closure of the event. -/
  split : κ → ρ → Bytes → List (Emit κ ρ) × Bytes
  /-- The bytes a state retains. -/
  retained : σ → Bytes
  inv : σ → Prop
  delimited : ∀ k, Delimited (split k) (Emit.framedFor k) fun f y => ∃ u, y = some u ∧ frame f u
  simulates : ∀ s event, inv s → inv (step s event).1 ∧ ∃ reads : List (ρ × Bytes),
    (reads.map Prod.snd).flatten = event.data ∧
      feedAll (feedSplit (split event.connection)) (retained s) reads =
        (retained (step s event).1, (step s event).2)
  /-- What is published for an event carries the connection of the event. -/
  own : ∀ s event f, Emit.framing f ∈ (step s event).2 → f.connection = event.connection

variable {step : σ → DataEvent κ ρ → σ × List (Emit κ ρ)} {frame : Bytes → FramedDataUnit → Prop}

/-- The reader of connection `k`, run on the events of `k`. -/
theorem Reader.delivers_one (r : Reader step frame) {s : σ} (hs : r.inv s)
    (hempty : r.retained s = []) {k : κ} {events : List (DataEvent κ ρ)}
    (mine : ∀ event ∈ events, event.connection = k) {frames : List (Bytes × FramedDataUnit)}
    (hframes : ∀ p ∈ frames, frame p.1 p.2)
    (hcut : (events.map (·.data)).flatten = (frames.map Prod.fst).flatten) :
    r.inv (feedAll step s events).1 ∧ r.retained (feedAll step s events).1 = [] ∧
      (feedAll step s events).2.map (Emit.framedFor k) = (frames.map Prod.snd).map some := by
  have sim : ∀ t event, r.inv t → event.connection = k → r.inv (step t event).1 ∧
      ∃ reads : List (ρ × Bytes), (reads.map Prod.snd).flatten = event.data ∧
        feedAll (feedSplit (r.split k)) (r.retained t) reads =
          (r.retained (step t event).1, (step t event).2) := by
    rintro t event ht rfl
    exact r.simulates t event ht
  obtain ⟨hend, reads, hdata, hrun⟩ := feedAll_reads sim events s hs mine
  have hall : ∀ p ∈ frames.map fun p => (p.1, some p.2), ∃ u, p.2 = some u ∧ frame p.1 u := by
    intro p hp
    obtain ⟨q, hq, rfl⟩ := List.mem_map.mp hp
    exact ⟨q.2, rfl, hframes q hq⟩
  have hstream : (reads.map Prod.snd).flatten =
      ((frames.map fun p => (p.1, some p.2)).map Prod.fst).flatten := by
    rw [hdata, hcut, List.map_map]
    rfl
  have hout := (r.delimited k).feedSplit_frames hall hstream
  rw [hempty] at hrun
  rw [hrun, List.map_map] at hout
  exact ⟨hend, hout.1, hout.2.trans (List.map_map (g := some)).symm⟩

/-- **A layer delivers exactly the frames of every connection**, in order and with no framing error,
under every cut of the streams and every interleaving of the connections. -/
theorem Reader.delivers (r : Reader step frame) (init : κ → σ) (hinit : ∀ k, r.inv (init k))
    (hempty : ∀ k, r.retained (init k) = []) (events : List (DataEvent κ ρ))
    (frames : κ → List (Bytes × FramedDataUnit)) (hframes : ∀ k, ∀ p ∈ frames k, frame p.1 p.2)
    (hcut : ∀ k, streamOf k events = ((frames k).map Prod.fst).flatten) :
    (∀ k, framedFor k (feedAll (keyed (·.connection) step) init events).2 =
        (frames k).map Prod.snd) ∧
      framingErrors (feedAll (keyed (·.connection) step) init events).2 = [] ∧
      ∀ k, r.inv ((feedAll (keyed (·.connection) step) init events).1 k) ∧
        r.retained ((feedAll (keyed (·.connection) step) init events).1 k) = [] := by
  have one := fun k => r.delivers_one (hinit k) (hempty k)
    (fun event hevent => of_decide_eq_true (List.mem_filter.mp hevent).2) (hframes k) (hcut k)
  have other : ∀ k s (event : DataEvent κ ρ) x, event.connection ≠ k → x ∈ (step s event).2 →
      Emit.framedFor k x = none := by
    intro k s event x hne hx
    cases x with
    | framing f => exact if_neg fun h => hne ((r.own s event f hx).symm.trans h)
    | framingError e => rfl
  refine ⟨?_, framingErrors_eq_nil.mpr ?_, ?_⟩
  · intro k
    exact (feedAll_keyed_proj (other k) init events).trans (framedFor_of_map (one k).2.2).1
  · intro x hx
    obtain ⟨k, hk⟩ := mem_feedAll_keyed hx
    exact framingErrors_eq_nil.mp (framedFor_of_map (one k).2.2).2 x hk
  · intro k
    rw [feedAll_keyed_state]
    exact ⟨(one k).1, (one k).2.1⟩

end RsModbus
