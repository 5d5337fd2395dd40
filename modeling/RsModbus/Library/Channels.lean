import Mathlib.Data.List.TakeDrop
import RsModbus.Library.Delimited

/-!
# Channels of frames

A **channel** takes a stream of symbols from a writer to a reader that cuts it into frames: the symbols
in flight, those the reader retains, and the outputs that nobody has taken yet. A write may fail part of
the way (`fail`), the end of what is in flight may be lost (`cut`), or all of it (`hangUp`); the channel
is broken then, and nothing goes into it any more. Outputs may be lost anywhere (`lose`).

`Carries ch messages` says what a channel still carries: the outputs in the queue show the first of the
messages, and the rest of the stream is a beginning of the frames of the others. Every step of the
channel has a law that says what it carries after it. So whatever happens to a channel, a message comes
out once at most, unchanged, and none before one that was sent earlier.
-/

namespace Library

variable {α β ε δ : Type*}

/-- A stream of symbols, and the outputs of its reader. -/
structure Channel (α ε : Type*) where
  flight : List α := []
  retained : List α := []
  queue : List ε := []
  broken : Bool := false

namespace Channel

/-- A write. -/
def send (ch : Channel α ε) (f : List α) : Channel α ε := { ch with flight := ch.flight ++ f }

/-- A write that fails after `n` symbols. -/
def fail (ch : Channel α ε) (f : List α) (n : Nat) : Channel α ε :=
  { ch with flight := if ch.broken then ch.flight else ch.flight ++ f.take n, broken := true }

/-- All but `n` symbols in flight are lost. -/
def cut (ch : Channel α ε) (n : Nat) : Channel α ε :=
  { ch with flight := ch.flight.take n, broken := true }

/-- The stream ends, and the reader forgets what it retains. -/
def hangUp (ch : Channel α ε) : Channel α ε := { ch with flight := [], retained := [], broken := true }

/-- The next `n` symbols are read. -/
def receive (split : β → List α → List ε × List α) (c : β) (n : Nat) (ch : Channel α ε) :
    Channel α ε :=
  let result := split c (ch.retained ++ ch.flight.take n)
  { ch with flight := ch.flight.drop n, retained := result.2, queue := ch.queue ++ result.1 }

/-- An output is lost. -/
def lose (ch : Channel α ε) (i : Nat) : Channel α ε := { ch with queue := ch.queue.eraseIdx i }

/-- Nothing goes into a broken channel. -/
theorem fail_of_broken {ch : Channel α ε} (h : ch.broken = true) (f : List α) (n : Nat) :
    ch.fail f n = ch := by
  obtain ⟨flight, retained, queue, broken⟩ := ch
  obtain rfl : broken = true := h
  rfl

end Channel

/-! ## What a channel carries -/

section Carries

variable (view : ε → δ) (frame : List α → δ → Prop)

/-- The messages `framed` are in the queue, those of `rest` in the stream, less the symbols `missing`. -/
structure Channel.Holds (ch : Channel α ε) (framed rest : List (List α × δ)) (missing : List α) :
    Prop where
  queued : ch.queue.map view = framed.map Prod.snd
  frames : ∀ p ∈ rest, frame p.1 p.2
  stream : ch.retained ++ ch.flight ++ missing = (rest.map Prod.fst).flatten
  whole : ch.broken = false → missing = []

/-- The messages that are on their way, in order. -/
def Channel.Carries (ch : Channel α ε) (messages : List (List α × δ)) : Prop :=
  ∃ framed rest missing, messages = framed ++ rest ∧ ch.Holds view frame framed rest missing

end Carries

namespace Channel.Carries

variable {view : ε → δ} {frame : List α → δ → Prop} {ch : Channel α ε}
  {messages : List (List α × δ)} {f : List α} {y : δ}

/-- A new channel carries nothing. -/
theorem empty : Carries view frame ({} : Channel α ε) [] :=
  ⟨[], [], [], rfl, ⟨rfl, List.forall_mem_nil _, rfl, fun _ => rfl⟩⟩

theorem send (h : ch.Carries view frame messages) (hopen : ch.broken = false) (hf : frame f y) :
    (ch.send f).Carries view frame (messages ++ [(f, y)]) := by
  obtain ⟨framed, rest, missing, rfl, holds⟩ := h
  obtain rfl := holds.whole hopen
  refine ⟨framed, rest ++ [(f, y)], [], List.append_assoc .., holds.queued, ?_, ?_, fun _ => rfl⟩
  · exact List.forall_mem_append.mpr ⟨holds.frames, List.forall_mem_singleton.mpr hf⟩
  · have hstream := holds.stream
    rw [List.append_nil] at hstream
    simp only [Channel.send, List.append_nil, List.map_append, List.flatten_append, ← hstream,
      List.map_cons, List.map_nil, List.flatten_cons, List.flatten_nil, List.append_assoc]

theorem fail (h : ch.Carries view frame messages) (hf : frame f y) (n : Nat) :
    (ch.fail f n).Carries view frame (messages ++ [(f, y)]) := by
  obtain ⟨framed, rest, missing, rfl, holds⟩ := h
  have hframes : ∀ p ∈ rest ++ [(f, y)], frame p.1 p.2 :=
    List.forall_mem_append.mpr ⟨holds.frames, List.forall_mem_singleton.mpr hf⟩
  have hflatten : ((rest ++ [(f, y)]).map Prod.fst).flatten =
      ch.retained ++ ch.flight ++ missing ++ f := by
    simp only [List.map_append, List.flatten_append, ← holds.stream, List.map_cons, List.map_nil,
      List.flatten_cons, List.flatten_nil, List.append_nil]
  cases hbroken : ch.broken with
  | true =>
    -- all of the message is missing
    rw [fail_of_broken hbroken]
    refine ⟨framed, rest ++ [(f, y)], missing ++ f, List.append_assoc .., holds.queued, hframes, ?_, ?_⟩
    · rw [hflatten, List.append_assoc _ missing f]
    · intro hopen
      rw [hbroken] at hopen
      cases hopen
  | false =>
    obtain rfl := holds.whole hbroken
    refine ⟨framed, rest ++ [(f, y)], f.drop n, List.append_assoc .., holds.queued, hframes, ?_, nofun⟩
    rw [hflatten, Channel.fail, hbroken]
    simp only [Bool.false_eq_true, ↓reduceIte, List.append_assoc, List.take_append_drop,
      List.nil_append]

theorem cut (h : ch.Carries view frame messages) (n : Nat) :
    (ch.cut n).Carries view frame messages := by
  obtain ⟨framed, rest, missing, rfl, holds⟩ := h
  refine ⟨framed, rest, ch.flight.drop n ++ missing, rfl, holds.queued, holds.frames, ?_, nofun⟩
  rw [← holds.stream]
  simp only [Channel.cut, List.append_assoc, ← List.append_assoc (ch.flight.take n),
    List.take_append_drop]

theorem hangUp (h : ch.Carries view frame messages) : ch.hangUp.Carries view frame messages := by
  obtain ⟨framed, rest, missing, rfl, holds⟩ := h
  exact ⟨framed, rest, (rest.map Prod.fst).flatten, rfl, holds.queued, holds.frames, rfl, nofun⟩

/-- Reading moves the frames that are whole to the queue. -/
theorem receive {split : β → List α → List ε × List α} (d : Delimited split view frame)
    (h : ch.Carries view frame messages) (c : β) (n : Nat) :
    (ch.receive split c n).Carries view frame messages := by
  obtain ⟨framed, rest, missing, rfl, holds⟩ := h
  have hstream : (ch.retained ++ ch.flight.take n) ++ (ch.flight.drop n ++ missing) =
      (rest.map Prod.fst).flatten := by
    rw [← holds.stream]
    simp only [List.append_assoc, ← List.append_assoc (ch.flight.take n), List.take_append_drop]
  obtain ⟨done, todo, rfl, houtputs, hread, -⟩ := d.split_prefix c rest _ _ holds.frames hstream
  refine ⟨framed ++ done, todo, missing, (List.append_assoc ..).symm, ?_, ?_, ?_, holds.whole⟩
  · rw [Channel.receive, List.map_append, List.map_append, holds.queued, houtputs]
  · exact fun p hp => holds.frames p (List.mem_append_right _ hp)
  · rw [hread, List.map_append, List.flatten_append, List.append_assoc,
      List.append_cancel_left_eq, ← List.append_assoc] at hstream
    exact hstream

/-- The next output shows the first of the messages. -/
theorem take (h : ch.Carries view frame messages) {x : ε} {queue : List ε}
    (hqueue : ch.queue = x :: queue) : ∃ message later, messages = message :: later ∧
      view x = message.2 ∧ { ch with queue := queue }.Carries view frame later := by
  obtain ⟨framed, rest, missing, rfl, holds⟩ := h
  have hqueued := holds.queued
  rw [hqueue, List.map_cons] at hqueued
  cases framed with
  | nil => cases hqueued
  | cons message framed =>
    obtain ⟨hview, hqueued⟩ := List.cons.inj hqueued
    exact ⟨message, framed ++ rest, rfl, hview, framed, rest, missing, rfl,
      ⟨hqueued, holds.frames, holds.stream, holds.whole⟩⟩

theorem lose (h : ch.Carries view frame messages) {i : Nat} (hi : i < ch.queue.length) :
    (ch.lose i).Carries view frame (messages.eraseIdx i) := by
  obtain ⟨framed, rest, missing, rfl, holds⟩ := h
  have hlength : ch.queue.length = framed.length := by
    rw [← List.length_map view, holds.queued, List.length_map]
  rw [List.eraseIdx_append_of_lt_length (hlength ▸ hi)]
  refine ⟨framed.eraseIdx i, rest, missing, rfl, ?_, holds.frames, holds.stream, holds.whole⟩
  simp only [Channel.lose, List.eraseIdx_eq_take_drop_succ, List.map_append, List.map_take,
    List.map_drop, holds.queued]

end Channel.Carries

end Library
