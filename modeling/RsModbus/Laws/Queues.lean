import Mathlib.Data.List.Basic
import RsModbus.Library.Runs
import RsModbus.Slave.Queues

/-!
# One drain loop for each connection

* `Slave.queues_fifo`: in every run the calls of `process_frame` for a connection begin in the order
  of arrival, none twice. While no call panics, a queue that is not empty has a drain loop. While
  moreover no arrival that has to create its queue finds an old drain loop of its connection, a
  connection has one drain loop at most, and its calls follow one after the other.
* `Slave.cleared_queue_gets_second_loop`: a queue cleared under its drain loop gets a second loop with
  the next arrival.
-/

namespace RsModbus.Slave

open Library

variable {κ φ : Type} [DecidableEq κ]

/-- The frames that wait in the queue of `k`. -/
def Queues.items (s : Queues κ φ) (k : κ) : List φ :=
  match s.queues k with
  | some entry => entry.items
  | none => []

/-- Drain loop `n` is one of connection `k`. -/
def Queues.Drains (s : Queues κ φ) (n : Nat) (k : κ) : Prop := ∃ phase, s.loops n = some (k, phase)

/-! ## What a step does -/

namespace Queues

variable {s t : Queues κ φ} {n : Nat} {k : κ}

/-- What a step of a drain loop can do. -/
theorem drainLoop_cases (h : s.drainLoop n = some t) :
    (∃ k, (s.loops n = some (k, .next) ∨ s.loops n = some (k, .settle)) ∧ s.queues k = none ∧
      t = s.setLoop n none) ∨
    (∃ k processing, s.loops n = some (k, .next) ∧ s.queues k = some ⟨[], processing⟩ ∧
      t = s.setLoop n (some (k, .settle))) ∨
    (∃ k frame items processing, s.loops n = some (k, .next) ∧
      s.queues k = some ⟨frame :: items, processing⟩ ∧
      t = { s.setLoop n (some (k, .working frame)) with
        queues := Function.update s.queues k (some ⟨items, processing⟩)
        begun := log s.begun k frame }) ∨
    (∃ k frame, s.loops n = some (k, .working frame) ∧
      t = { s.setLoop n (some (k, .next)) with ended := log s.ended k frame }) ∨
    (∃ k processing, s.loops n = some (k, .settle) ∧ s.queues k = some ⟨[], processing⟩ ∧
      t = { s.setLoop n none with queues := Function.update s.queues k none }) ∨
    (∃ k frame items processing, s.loops n = some (k, .settle) ∧
      s.queues k = some ⟨frame :: items, processing⟩ ∧ t = s.setLoop n (some (k, .next))) := by
  unfold drainLoop at h
  split at h
  · cases h
  next k hloop =>
    split at h
    next hqueue =>
      cases h
      exact .inl ⟨k, .inl hloop, hqueue, rfl⟩
    next processing hqueue =>
      cases h
      exact .inr (.inl ⟨k, processing, hloop, hqueue, rfl⟩)
    next frame items processing hqueue =>
      cases h
      exact .inr (.inr (.inl ⟨k, frame, items, processing, hloop, hqueue, rfl⟩))
  next k frame hloop =>
    cases h
    exact .inr (.inr (.inr (.inl ⟨k, frame, hloop, rfl⟩)))
  next k hloop =>
    split at h
    next hqueue =>
      cases h
      exact .inl ⟨k, .inr hloop, hqueue, rfl⟩
    next processing hqueue =>
      cases h
      exact .inr (.inr (.inr (.inr (.inl ⟨k, processing, hloop, hqueue, rfl⟩))))
    next frame items processing hqueue =>
      cases h
      exact .inr (.inr (.inr (.inr (.inr ⟨k, frame, items, processing, hloop, hqueue, rfl⟩))))

/-- What an arrival can do: it joins a queue that is being drained, or gets a drain loop. -/
theorem enqueueAndDrain_cases (s : Queues κ φ) (k : κ) (frame : φ) :
    (∃ items, s.queues k = some ⟨items, true⟩ ∧ s.enqueueAndDrain k frame = { s with
      queues := Function.update s.queues k (some ⟨items ++ [frame], true⟩)
      arrived := log s.arrived k frame }) ∨
    ((∀ items, s.queues k ≠ some ⟨items, true⟩) ∧ s.enqueueAndDrain k frame = { s with
      queues := Function.update s.queues k (some ⟨s.items k ++ [frame], true⟩)
      arrived := log s.arrived k frame
      loops := Function.update s.loops s.spawned (some (k, .next))
      spawned := s.spawned + 1 }) := by
  unfold enqueueAndDrain items
  cases hqueue : s.queues k with
  | none => exact .inr ⟨nofun, rfl⟩
  | some entry =>
    obtain ⟨items, processing⟩ := entry
    cases processing with
    | true => exact .inl ⟨items, rfl, rfl⟩
    | false => exact .inr ⟨nofun, rfl⟩

/-! ## Frames that wait -/

@[simp] theorem log_self (frames : κ → List φ) (k : κ) (frame : φ) :
    log frames k frame k = frames k ++ [frame] := Function.update_self ..

theorem log_of_ne {frames : κ → List φ} {k k' : κ} {frame : φ} (h : k' ≠ k) :
    log frames k frame k' = frames k' := Function.update_of_ne h ..

/-- The queue of another connection is as it was. -/
theorem items_of_ne {k' : κ} {entry : Option (QueueEntry φ)} (hne : k' ≠ k)
    (h : t.queues = Function.update s.queues k entry) : t.items k' = s.items k' := by
  rw [items, items, h, Function.update_of_ne hne]

omit [DecidableEq κ]

theorem items_of_some {entry : QueueEntry φ} (h : s.queues k = some entry) :
    s.items k = entry.items := by
  rw [items, h]

theorem items_of_none (h : s.queues k = none) : s.items k = [] := by
  rw [items, h]

end Queues

namespace Queues

variable {s t : Queues κ φ} {n : Nat} {k : κ}

/-- An arrival joins what waits. -/
theorem enqueueAndDrain_held (s : Queues κ φ) (k : κ) (frame : φ) :
    (s.enqueueAndDrain k frame).begun = s.begun ∧
      (s.enqueueAndDrain k frame).arrived = log s.arrived k frame ∧
      ∀ k', (s.enqueueAndDrain k frame).items k' =
        if k' = k then s.items k ++ [frame] else s.items k' := by
  have hitems : ∀ t : Queues κ φ,
      t.queues = Function.update s.queues k (some ⟨s.items k ++ [frame], true⟩) →
      ∀ k', t.items k' = if k' = k then s.items k ++ [frame] else s.items k' := by
    intro t hqueues k'
    by_cases hk : k' = k
    · subst hk
      rw [if_pos rfl, items, hqueues, Function.update_self]
    · rw [if_neg hk, items_of_ne hk hqueues]
  rcases s.enqueueAndDrain_cases k frame with ⟨items, hqueue, heq⟩ | ⟨-, heq⟩ <;> rw [heq]
  · refine ⟨rfl, rfl, hitems _ ?_⟩
    rw [items_of_some hqueue]
  · exact ⟨rfl, rfl, hitems _ rfl⟩

/-- A drain loop only moves frames from what waits to what has begun. -/
theorem drainLoop_moves (h : s.drainLoop n = some t) : t.arrived = s.arrived ∧
    ∀ k, ∃ moved, s.items k = moved ++ t.items k ∧ t.begun k = s.begun k ++ moved := by
  have hsame : ∀ k, t.items k = s.items k → t.begun k = s.begun k →
      ∃ moved, s.items k = moved ++ t.items k ∧ t.begun k = s.begun k ++ moved := by
    intro k hitems hbegun
    exact ⟨[], hitems.symm, by rw [hbegun, List.append_nil]⟩
  rcases drainLoop_cases h with ⟨k, -, -, rfl⟩ | ⟨k, _, -, -, rfl⟩ |
    ⟨k, frame, items, processing, -, hqueue, rfl⟩ | ⟨k, frame, -, rfl⟩ |
    ⟨k, processing, -, hqueue, rfl⟩ | ⟨k, _, _, _, -, -, rfl⟩
  · exact ⟨rfl, fun k => hsame k rfl rfl⟩
  · exact ⟨rfl, fun k => hsame k rfl rfl⟩
  · refine ⟨rfl, ?_⟩
    intro k'
    by_cases hk : k' = k
    · subst hk
      refine ⟨[frame], ?_, log_self ..⟩
      rw [items_of_some hqueue, items_of_some (Function.update_self ..)]
      rfl
    · exact hsame k' (items_of_ne hk rfl) (log_of_ne hk)
  · exact ⟨rfl, fun k => hsame k rfl rfl⟩
  · refine ⟨rfl, ?_⟩
    intro k'
    refine hsame k' ?_ rfl
    by_cases hk : k' = k
    · subst hk
      rw [items_of_some hqueue, items_of_none (Function.update_self ..)]
    · exact items_of_ne hk rfl
  · exact ⟨rfl, fun k => hsame k rfl rfl⟩

theorem drainLoop_held (h : s.drainLoop n = some t) :
    t.arrived = s.arrived ∧ ∀ k, t.begun k ++ t.items k = s.begun k ++ s.items k := by
  obtain ⟨harrived, hmoves⟩ := drainLoop_moves h
  refine ⟨harrived, ?_⟩
  intro k
  obtain ⟨moved, hitems, hbegun⟩ := hmoves k
  rw [hitems, hbegun, List.append_assoc]

/-- A connection that closes leaves nothing in its queue. -/
theorem connectionClose_held (s : Queues κ φ) (k : κ) :
    (s.connectionClose k).begun = s.begun ∧ (s.connectionClose k).arrived = s.arrived ∧
      ∀ k', (s.connectionClose k).items k' = if k' = k then [] else s.items k' := by
  unfold connectionClose
  split
  next hqueue =>
    refine ⟨rfl, rfl, ?_⟩
    intro k'
    split
    next hk => exact hk ▸ items_of_none hqueue
    · rfl
  next items' processing hqueue =>
    refine ⟨rfl, rfl, ?_⟩
    intro k'
    by_cases hk : k' = k
    · subst hk
      cases processing <;> simp [items]
    · rw [if_neg hk, items_of_ne hk rfl]

end Queues

/-! ## Order -/

/-- What has begun, and then what waits, is in the order of arrival, with nothing twice. -/
def InOrder (s : Queues κ φ) : Prop := ∀ k, (s.begun k ++ s.items k).Sublist (s.arrived k)

namespace InOrder

variable {s t : Queues κ φ}

omit [DecidableEq κ] in
/-- A step that moves frames of no queue, or drops them. -/
theorem drop (h : InOrder s) (hbegun : t.begun = s.begun) (harrived : t.arrived = s.arrived)
    (hitems : ∀ k, t.items k = s.items k ∨ t.items k = []) : InOrder t := by
  intro k
  rw [hbegun, harrived]
  rcases hitems k with hsame | hempty
  · rw [hsame]
    exact h k
  · rw [hempty, List.append_nil]
    exact (List.sublist_append_left _ _).trans (h k)

theorem arrive (h : InOrder s) (k : κ) (frame : φ) : InOrder (s.enqueueAndDrain k frame) := by
  intro k'
  obtain ⟨hbegun, harrived, hitems⟩ := s.enqueueAndDrain_held k frame
  rw [hbegun, harrived, hitems]
  by_cases hk : k' = k
  · subst hk
    rw [if_pos rfl, Queues.log_self, ← List.append_assoc]
    exact (h k').append (List.Sublist.refl _)
  · rw [if_neg hk, Queues.log_of_ne hk]
    exact h k'

theorem drain (h : InOrder s) {n : Nat} (hstep : s.drainLoop n = some t) : InOrder t := by
  intro k
  obtain ⟨harrived, hheld⟩ := Queues.drainLoop_held hstep
  rw [harrived, hheld]
  exact h k

theorem step (h : InOrder s) {label : QueueLabel κ φ} (hstep : s.step label = some t) :
    InOrder t := by
  cases label with
  | arrive k frame =>
    cases hstep
    exact h.arrive k frame
  | drain n => exact h.drain hstep
  | panic n =>
    rw [Queues.step] at hstep
    split at hstep
    · cases hstep
      exact h
    · cases hstep
  | connectionClose k =>
    cases hstep
    obtain ⟨hbegun, harrived, hitems⟩ := s.connectionClose_held k
    refine h.drop hbegun harrived ?_
    intro k'
    rw [hitems]
    split
    · exact .inr rfl
    · exact .inl rfl
  | clear =>
    cases hstep
    exact h.drop rfl rfl fun k => .inr rfl

end InOrder

/-! ## Drain loops -/

namespace Queues

variable {s t : Queues κ φ} {n n' : Nat} {k k' : κ}

omit [DecidableEq κ]

theorem setLoop_self (s : Queues κ φ) (n : Nat) (loop : Option (κ × DrainPhase φ)) :
    (s.setLoop n loop).loops n = loop := Function.update_self ..

theorem setLoop_of_ne {loop : Option (κ × DrainPhase φ)} (h : n' ≠ n) :
    (s.setLoop n loop).loops n' = s.loops n' := Function.update_of_ne h ..

/-- A drain loop that moves on drains the connection it did. -/
theorem drains_setLoop {phase phase' : DrainPhase φ} (hloop : s.loops n = some (k, phase)) :
    (s.setLoop n (some (k, phase'))).Drains n' k' ↔ s.Drains n' k' := by
  by_cases hn : n' = n
  · subst hn
    rw [Drains, Drains, setLoop_self, hloop]
    constructor
    · rintro ⟨_, h⟩
      cases h
      exact ⟨phase, rfl⟩
    · rintro ⟨_, h⟩
      cases h
      exact ⟨phase', rfl⟩
  · rw [Drains, Drains, setLoop_of_ne hn]

theorem drains_of_loops {phase phase' : DrainPhase φ} (hloop : s.loops n = some (k, phase))
    (hloops : t.loops = (s.setLoop n (some (k, phase'))).loops) :
    t.Drains n' k' ↔ s.Drains n' k' := by
  rw [Drains, hloops]
  exact drains_setLoop hloop

/-- A drain loop that moves on leaves the other connections. -/
theorem working_setLoop {phase phase' : DrainPhase φ} (hloop : s.loops n = some (k, phase))
    (hk : k' ≠ k) {frame : φ} :
    (s.setLoop n (some (k, phase'))).loops n' = some (k', .working frame) ↔
      s.loops n' = some (k', .working frame) := by
  by_cases hn : n' = n
  · subst hn
    rw [setLoop_self, hloop]
    constructor <;>
    · intro heq
      cases heq
      exact absurd rfl hk
  · rw [setLoop_of_ne hn]

/-- When a drain loop goes, the others stay. -/
theorem drains_of_gone : (s.setLoop n none).Drains n' k' ↔ n' ≠ n ∧ s.Drains n' k' := by
  by_cases hn : n' = n
  · subst hn
    rw [Drains, setLoop_self]
    exact ⟨fun ⟨_, h⟩ => (nomatch h), fun h => absurd rfl h.1⟩
  · rw [Drains, Drains, setLoop_of_ne hn]
    exact ⟨fun h => ⟨hn, h⟩, And.right⟩

/-- A drain loop drains one connection. -/
theorem Drains.eq (h : s.Drains n k) (h' : s.Drains n k') : k = k' := by
  obtain ⟨_, hloop⟩ := h
  obtain ⟨_, hloop'⟩ := h'
  cases hloop.symm.trans hloop'
  rfl

end Queues

/-! ## No queue without a drain loop -/

/-- Every queue is marked and has a drain loop. -/
structure Live (s : Queues κ φ) : Prop where
  fresh : ∀ n, s.spawned ≤ n → s.loops n = none
  live : ∀ k entry, s.queues k = some entry → entry.processing = true ∧ ∃ n, s.Drains n k

namespace Live

variable {s t : Queues κ φ} {n : Nat} {k : κ}

omit [DecidableEq κ] in
/-- A drain loop that is there has been spawned. -/
theorem fresh_setLoop (h : Live s) {old : κ × DrainPhase φ} {loop : Option (κ × DrainPhase φ)}
    (hloop : s.loops n = some old) :
    ∀ n', s.spawned ≤ n' → (s.setLoop n loop).loops n' = none := by
  intro n' hn'
  have hne : n' ≠ n := by
    rintro rfl
    cases hloop.symm.trans (h.fresh n' hn')
  rw [Queues.setLoop_of_ne hne]
  exact h.fresh n' hn'

/-- A step that sets the queue of one connection which has a drain loop after it. -/
theorem update (h : Live s) {entry : QueueEntry φ} (hfresh : ∀ n, t.spawned ≤ n → t.loops n = none)
    (hqueues : t.queues = Function.update s.queues k (some entry)) (hentry : entry.processing = true)
    (hown : ∃ n, t.Drains n k) (hdrains : ∀ n k', s.Drains n k' → t.Drains n k') : Live t where
  fresh := hfresh
  live k' entry' hentry' := by
    rw [hqueues] at hentry'
    by_cases hk : k' = k
    · subst hk
      rw [Function.update_self] at hentry'
      cases hentry'
      exact ⟨hentry, hown⟩
    · rw [Function.update_of_ne hk] at hentry'
      obtain ⟨hprocessing, n, hn⟩ := h.live k' entry' hentry'
      exact ⟨hprocessing, n, hdrains n k' hn⟩

omit [DecidableEq κ] in
/-- A drain loop that finds its queue gone, or takes it away, goes. -/
theorem gone (h : Live s) (hdrains : s.Drains n k) (hloops : t.loops = (s.setLoop n none).loops)
    (hspawned : t.spawned = s.spawned) (hqueue : t.queues k = none)
    (hothers : ∀ k', k' ≠ k → t.queues k' = s.queues k') : Live t where
  fresh n' hn' := by
    obtain ⟨phase, hloop⟩ := hdrains
    rw [hloops]
    exact h.fresh_setLoop hloop n' (hspawned ▸ hn')
  live k' entry hentry := by
    have hk : k' ≠ k := by
      rintro rfl
      rw [hqueue] at hentry
      cases hentry
    rw [hothers k' hk] at hentry
    obtain ⟨hprocessing, n', hn'⟩ := h.live k' entry hentry
    refine ⟨hprocessing, n', ?_⟩
    rw [Queues.Drains, hloops]
    exact Queues.drains_of_gone.mpr ⟨fun heq => hk (hn'.eq (heq ▸ hdrains)), hn'⟩

omit [DecidableEq κ] in
/-- A drain loop moves on. -/
theorem move (h : Live s) {phase phase' : DrainPhase φ} (hloop : s.loops n = some (k, phase))
    (hloops : t.loops = (s.setLoop n (some (k, phase'))).loops) (hspawned : t.spawned = s.spawned)
    (hqueues : t.queues = s.queues) : Live t where
  fresh n' hn' := by
    rw [hloops]
    exact h.fresh_setLoop hloop n' (hspawned ▸ hn')
  live k' entry hentry := by
    obtain ⟨hprocessing, n', hn'⟩ := h.live k' entry (hqueues ▸ hentry)
    exact ⟨hprocessing, n', (Queues.drains_of_loops hloop hloops).mpr hn'⟩

theorem arrive (h : Live s) (k : κ) (frame : φ) : Live (s.enqueueAndDrain k frame) := by
  rcases s.enqueueAndDrain_cases k frame with ⟨items, hqueue, heq⟩ | ⟨-, heq⟩ <;> rw [heq]
  · exact h.update h.fresh rfl rfl (h.live k _ hqueue).2 fun _ _ hn => hn
  · have hloops : ∀ n, n ≠ s.spawned →
        Function.update s.loops s.spawned (some (k, .next)) n = s.loops n := fun n hn =>
      Function.update_of_ne hn ..
    refine h.update ?_ rfl rfl ⟨s.spawned, .next, Function.update_self ..⟩ ?_
    · intro n hn
      exact (hloops n (Nat.ne_of_gt hn)).trans (h.fresh n (Nat.le_of_succ_le hn))
    · rintro n k' ⟨phase, hloop⟩
      refine ⟨phase, (hloops n ?_).trans hloop⟩
      rintro rfl
      rw [h.fresh _ (Nat.le_refl _)] at hloop
      cases hloop

theorem drain (h : Live s) (hstep : s.drainLoop n = some t) : Live t := by
  rcases Queues.drainLoop_cases hstep with ⟨k, hloop, hqueue, rfl⟩ | ⟨k, _, hloop, -, rfl⟩ |
    ⟨k, frame, items, processing, hloop, hqueue, rfl⟩ | ⟨k, frame, hloop, rfl⟩ |
    ⟨k, processing, hloop, -, rfl⟩ | ⟨k, _, _, _, hloop, -, rfl⟩
  · have hdrains : s.Drains n k := by rcases hloop with hloop | hloop <;> exact ⟨_, hloop⟩
    exact h.gone hdrains rfl rfl hqueue fun _ _ => rfl
  · exact h.move hloop rfl rfl rfl
  · have hdrains : ∀ n' k', (s.setLoop n (some (k, .working frame))).Drains n' k' ↔ s.Drains n' k' :=
      fun _ _ => Queues.drains_setLoop hloop
    refine h.update (h.fresh_setLoop hloop) rfl (h.live k _ hqueue).1
      ⟨n, (hdrains n k).mpr ⟨_, hloop⟩⟩ fun n' k' hn' => (hdrains n' k').mpr hn'
  · exact h.move hloop rfl rfl rfl
  · exact h.gone ⟨_, hloop⟩ rfl rfl (Function.update_self ..) fun k' hk => Function.update_of_ne hk ..
  · exact h.move hloop rfl rfl rfl

theorem connectionClose (h : Live s) (k : κ) : Live (s.connectionClose k) := by
  rw [Queues.connectionClose]
  split
  · exact h
  next items processing hqueue =>
    obtain ⟨rfl, hdrains⟩ := h.live k _ hqueue
    exact h.update h.fresh rfl rfl hdrains fun _ _ hn => hn

omit [DecidableEq κ] in
theorem clear (h : Live s) : Live s.clear := ⟨h.fresh, fun _ _ hentry => nomatch hentry⟩

theorem step (h : Live s) {label : QueueLabel κ φ} (hpanic : ∀ n, label ≠ .panic n)
    (hstep : s.step label = some t) : Live t := by
  cases label with
  | arrive k frame =>
    cases hstep
    exact h.arrive k frame
  | drain n => exact h.drain hstep
  | panic n => exact absurd rfl (hpanic n)
  | connectionClose k =>
    cases hstep
    exact h.connectionClose k
  | clear =>
    cases hstep
    exact h.clear

end Live

/-! ## A queue can be emptied -/

namespace Queues

variable {s t : Queues κ φ} {n : Nat} {k : κ} {frame : φ} {items : List φ}

omit [DecidableEq κ] in
/-- A queue with frames in it. -/
theorem queues_of_items (h : s.items k = frame :: items) :
    ∃ processing, s.queues k = some ⟨frame :: items, processing⟩ := by
  unfold Queues.items at h
  split at h
  next entry hentry =>
    obtain ⟨frames, processing⟩ := entry
    cases h
    exact ⟨processing, hentry⟩
  · cases h

/-- A drain loop before `pop_front` takes the first frame. -/
theorem drain_next (hloop : s.loops n = some (k, .next)) (hitems : s.items k = frame :: items) :
    ∃ t, s.step (.drain n) = some t ∧ t.items k = items := by
  obtain ⟨processing, hqueue⟩ := queues_of_items hitems
  refine ⟨{ s.setLoop n (some (k, .working frame)) with
    queues := Function.update s.queues k (some ⟨items, processing⟩)
    begun := log s.begun k frame }, ?_, ?_⟩
  · simp only [step, drainLoop, hloop, hqueue]
  · simp only [Queues.items, Function.update_self]

/-- A drain loop of a queue that is not empty takes its first frame, after at most one step before. -/
theorem drain_first (hdrains : s.Drains n k) (hitems : s.items k = frame :: items) :
    ∃ (ns : List Nat) (t : Queues κ φ),
      exec Queues.step s (ns.map QueueLabel.drain) = some t ∧ t.items k = items := by
  obtain ⟨processing, hqueue⟩ := queues_of_items hitems
  have htwo : ∀ u, s.step (.drain n) = some u → u.loops n = some (k, .next) →
      u.items k = frame :: items → ∃ (ns : List Nat) (t : Queues κ φ),
        exec Queues.step s (ns.map QueueLabel.drain) = some t ∧ t.items k = items := by
    intro u hfirst hloop hitems'
    obtain ⟨t, hsecond, ht⟩ := drain_next hloop hitems'
    refine ⟨[n, n], t, ?_, ht⟩
    simp only [List.map_cons, List.map_nil, exec_cons, exec_nil, hfirst, hsecond, Option.bind_some]
  obtain ⟨phase, hloop⟩ := hdrains
  cases phase with
  | next =>
    obtain ⟨t, hstep, ht⟩ := drain_next hloop hitems
    refine ⟨[n], t, ?_, ht⟩
    simp only [List.map_cons, List.map_nil, exec_cons, exec_nil, hstep, Option.bind_some]
  | working frame' =>
    refine htwo { s.setLoop n (some (k, .next)) with ended := log s.ended k frame' } ?_
      (setLoop_self s n _) hitems
    simp only [step, drainLoop, hloop]
  | settle =>
    refine htwo (s.setLoop n (some (k, .next))) ?_ (setLoop_self s n _) hitems
    simp only [step, drainLoop, hloop, hqueue]

end Queues

/-- No call of `process_frame` panics along the run: every queue has its drain loop. -/
theorem Live.run {s t : Queues κ φ} (h : Live s) {labels : List (QueueLabel κ φ)}
    (hpanic : ∀ n, .panic n ∉ labels) (run : exec Queues.step s labels = some t) : Live t := by
  refine exec_invariant_of_mem (fun _ _ _ h hlabel hstep => h.step hlabel hstep) run ?_ h
  rintro label hmem n rfl
  exact hpanic n hmem

/-- The drain loops can empty a queue. -/
theorem Live.drained {s : Queues κ φ} (h : Live s) (k : κ) : ∃ (ns : List Nat) (t : Queues κ φ),
    exec Queues.step s (ns.map QueueLabel.drain) = some t ∧ t.items k = [] := by
  induction hitems : s.items k generalizing s with
  | nil => exact ⟨[], s, rfl, hitems⟩
  | cons frame items ih =>
    obtain ⟨processing, hqueue⟩ := Queues.queues_of_items hitems
    obtain ⟨-, n, hdrains⟩ := h.live k _ hqueue
    obtain ⟨ns, u, hrun, hu⟩ := Queues.drain_first hdrains hitems
    have hlive : Live u := h.run (fun n hmem => by simp at hmem) hrun
    obtain ⟨ns', t, hrun', ht⟩ := ih hlive hu
    refine ⟨ns ++ ns', t, ?_, ht⟩
    rw [List.map_append, exec_append, hrun]
    exact hrun'

/-! ## One drain loop at a time -/

/-- `process_frame` is at work on the last frame of connection `k` that it began with, or on none. -/
def Turns (s : Queues κ φ) (k : κ) : Prop :=
  (∃ n frame, s.loops n = some (k, .working frame) ∧ s.begun k = s.ended k ++ [frame]) ∨
    ((∀ n frame, s.loops n ≠ some (k, .working frame)) ∧ s.begun k = s.ended k)

/-- A connection has one drain loop at most, and its frames take turns. -/
structure Alone (s : Queues κ φ) : Prop where
  one : ∀ n n' k, s.Drains n k → s.Drains n' k → n = n'
  turns : ∀ k, Turns s k

/-- No call of `process_frame` panics, and an arrival that has to create its queue finds no drain loop
of its connection. -/
def Orderly (s : Queues κ φ) : QueueLabel κ φ → Prop
  | .arrive k _ => s.queues k = none → ∀ n, ¬ s.Drains n k
  | .panic _ => False
  | _ => True

namespace Alone

variable {s t : Queues κ φ} {n : Nat} {k : κ}

omit [DecidableEq κ] in
/-- A drain loop that is not in `process_frame`, before or after, goes or moves on. -/
theorem aside (h : Alone s) {phase : DrainPhase φ} {loop : Option (κ × DrainPhase φ)}
    (hloop : s.loops n = some (k, phase)) (hwas : ∀ frame, phase ≠ .working frame)
    (hsame : ∀ k' phase', loop = some (k', phase') → k' = k ∧ ∀ frame, phase' ≠ .working frame)
    (hloops : t.loops = (s.setLoop n loop).loops) (hbegun : t.begun = s.begun)
    (hended : t.ended = s.ended) : Alone t := by
  have hback : ∀ n' k', t.Drains n' k' → s.Drains n' k' := by
    rintro n' k' ⟨phase', hloop'⟩
    rw [hloops] at hloop'
    by_cases hn : n' = n
    · subst hn
      rw [Queues.setLoop_self] at hloop'
      obtain ⟨rfl, -⟩ := hsame k' phase' hloop'
      exact ⟨phase, hloop⟩
    · rw [Queues.setLoop_of_ne hn] at hloop'
      exact ⟨phase', hloop'⟩
  have hworking : ∀ n' k' frame, t.loops n' = some (k', .working frame) ↔
      s.loops n' = some (k', .working frame) := by
    intro n' k' frame
    rw [hloops]
    by_cases hn : n' = n
    · subst hn
      rw [Queues.setLoop_self, hloop]
      constructor
      · exact fun heq => absurd rfl ((hsame k' _ heq).2 frame)
      · intro heq
        cases heq
        exact absurd rfl (hwas frame)
    · rw [Queues.setLoop_of_ne hn]
  refine ⟨fun n₁ n₂ k' h₁ h₂ => h.one n₁ n₂ k' (hback n₁ k' h₁) (hback n₂ k' h₂), ?_⟩
  intro k'
  rw [Turns, hbegun, hended]
  simp only [ne_eq, hworking]
  exact h.turns k'

/-- A drain loop takes a frame. -/
theorem take (h : Alone s) {frame : φ} (hloop : s.loops n = some (k, .next))
    (hloops : t.loops = (s.setLoop n (some (k, .working frame))).loops)
    (hbegun : t.begun = Queues.log s.begun k frame) (hended : t.ended = s.ended) : Alone t := by
  have hdrains : ∀ n' k', t.Drains n' k' ↔ s.Drains n' k' := fun _ _ =>
    Queues.drains_of_loops hloop hloops
  refine ⟨fun n₁ n₂ k' h₁ h₂ => h.one n₁ n₂ k' ((hdrains n₁ k').mp h₁) ((hdrains n₂ k').mp h₂), ?_⟩
  intro k'
  by_cases hk : k' = k
  · subst hk
    refine .inl ⟨n, frame, by rw [hloops, Queues.setLoop_self], ?_⟩
    rcases h.turns k' with ⟨n₀, frame₀, hworking, -⟩ | ⟨-, hsettled⟩
    · -- the one drain loop of `k'` is not in `process_frame`
      cases h.one n n₀ k' ⟨_, hloop⟩ ⟨_, hworking⟩
      cases hloop.symm.trans hworking
    · rw [hbegun, hended, Queues.log_self, hsettled]
  · rw [Turns, hbegun, hended, Queues.log_of_ne hk, hloops]
    simp only [ne_eq, Queues.working_setLoop hloop hk]
    exact h.turns k'

/-- `process_frame` returns. -/
theorem finish (h : Alone s) {frame : φ} (hloop : s.loops n = some (k, .working frame))
    (hloops : t.loops = (s.setLoop n (some (k, .next))).loops)
    (hbegun : t.begun = s.begun) (hended : t.ended = Queues.log s.ended k frame) : Alone t := by
  have hdrains : ∀ n' k', t.Drains n' k' ↔ s.Drains n' k' := fun _ _ =>
    Queues.drains_of_loops hloop hloops
  refine ⟨fun n₁ n₂ k' h₁ h₂ => h.one n₁ n₂ k' ((hdrains n₁ k').mp h₁) ((hdrains n₂ k').mp h₂), ?_⟩
  intro k'
  by_cases hk : k' = k
  · subst hk
    refine .inr ⟨?_, ?_⟩
    · intro n' frame' hworking
      cases h.one n n' k' ⟨_, hloop⟩ ((hdrains n' k').mp ⟨_, hworking⟩)
      rw [hloops, Queues.setLoop_self] at hworking
      cases hworking
    · rcases h.turns k' with ⟨n₀, frame₀, hworking, hbusy⟩ | ⟨hidle, -⟩
      · cases h.one n n₀ k' ⟨_, hloop⟩ ⟨_, hworking⟩
        cases hloop.symm.trans hworking
        rw [hbegun, hended, Queues.log_self, hbusy]
      · exact absurd hloop (hidle n frame)
  · rw [Turns, hbegun, hended, Queues.log_of_ne hk, hloops]
    simp only [ne_eq, Queues.working_setLoop hloop hk]
    exact h.turns k'

theorem drain (h : Alone s) (hstep : s.drainLoop n = some t) : Alone t := by
  rcases Queues.drainLoop_cases hstep with ⟨k, hloop | hloop, -, rfl⟩ | ⟨k, _, hloop, -, rfl⟩ |
    ⟨k, frame, items, processing, hloop, hqueue, rfl⟩ | ⟨k, frame, hloop, rfl⟩ |
    ⟨k, processing, hloop, -, rfl⟩ | ⟨k, _, _, _, hloop, -, rfl⟩
  · exact h.aside hloop nofun (fun _ _ heq => by cases heq) rfl rfl rfl
  · exact h.aside hloop nofun (fun _ _ heq => by cases heq) rfl rfl rfl
  · exact h.aside hloop nofun (fun _ _ heq => by cases heq; exact ⟨rfl, nofun⟩) rfl rfl rfl
  · exact h.take hloop rfl rfl rfl
  · exact h.finish hloop rfl rfl rfl
  · exact h.aside hloop nofun (fun _ _ heq => by cases heq) rfl rfl rfl
  · exact h.aside hloop nofun (fun _ _ heq => by cases heq; exact ⟨rfl, nofun⟩) rfl rfl rfl

/-- An arrival starts a drain loop only for a connection that has none. -/
theorem arrive (h : Alone s) (l : Live s) {frame : φ} (orderly : Orderly s (.arrive k frame)) :
    Alone (s.enqueueAndDrain k frame) := by
  rcases s.enqueueAndDrain_cases k frame with ⟨items, -, heq⟩ | ⟨hunmarked, heq⟩ <;> rw [heq]
  · exact ⟨h.one, h.turns⟩
  · have hnone : s.queues k = none := by
      by_contra hsome
      obtain ⟨⟨items, processing⟩, hqueue⟩ := Option.ne_none_iff_exists'.mp hsome
      obtain ⟨rfl, -⟩ := l.live k _ hqueue
      exact hunmarked items hqueue
    have hno := orderly hnone
    have hloops : ∀ n loop, Function.update s.loops s.spawned (some (k, .next)) n = some loop →
        n = s.spawned ∧ loop = (k, .next) ∨ s.loops n = some loop := by
      intro n loop hn
      by_cases hspawned : n = s.spawned
      · subst hspawned
        rw [Function.update_self] at hn
        exact .inl ⟨rfl, (Option.some.inj hn).symm⟩
      · rw [Function.update_of_ne hspawned] at hn
        exact .inr hn
    constructor
    · rintro n₁ n₂ k' ⟨phase₁, h₁⟩ ⟨phase₂, h₂⟩
      rcases hloops n₁ _ h₁ with ⟨rfl, heq₁⟩ | hold₁ <;>
        rcases hloops n₂ _ h₂ with ⟨rfl, heq₂⟩ | hold₂
      · rfl
      · cases heq₁
        exact absurd ⟨_, hold₂⟩ (hno n₂)
      · cases heq₂
        exact absurd ⟨_, hold₁⟩ (hno n₁)
      · exact h.one n₁ n₂ k' ⟨_, hold₁⟩ ⟨_, hold₂⟩
    · intro k'
      rcases h.turns k' with ⟨n, frame', hworking, hbusy⟩ | ⟨hidle, hsettled⟩
      · refine .inl ⟨n, frame', (Function.update_of_ne ?_ ..).trans hworking, hbusy⟩
        rintro rfl
        rw [l.fresh _ (Nat.le_refl _)] at hworking
        cases hworking
      · refine .inr ⟨?_, hsettled⟩
        intro n frame' hworking
        rcases hloops n _ hworking with ⟨-, heq'⟩ | hold
        · cases heq'
        · exact hidle n frame' hold

theorem step (h : Alone s) (l : Live s) {label : QueueLabel κ φ} (orderly : Orderly s label)
    (hstep : s.step label = some t) : Alone t := by
  cases label with
  | arrive k frame =>
    cases hstep
    exact h.arrive l orderly
  | drain n => exact h.drain hstep
  | panic n => exact orderly.elim
  | connectionClose k =>
    cases hstep
    rw [Queues.connectionClose]
    split <;> exact ⟨h.one, h.turns⟩
  | clear =>
    cases hstep
    exact ⟨h.one, h.turns⟩

end Alone

/-! ## Runs -/

/-- The calls of `process_frame` for a connection begin in the order of arrival, none twice, in every
run. -/
theorem begun_sublist {s : Queues κ φ} {labels : List (QueueLabel κ φ)}
    (run : exec Queues.step {} labels = some s) (k : κ) : (s.begun k).Sublist (s.arrived k) := by
  have h : InOrder s := exec_invariant' (fun _ _ _ h hstep => h.step hstep) run
    fun _ => List.Sublist.refl []
  exact (List.sublist_append_left _ _).trans (h k)

omit [DecidableEq κ] in
theorem live_init : Live ({} : Queues κ φ) where
  fresh _ _ := rfl
  live _ _ h := nomatch h

omit [DecidableEq κ] in
theorem alone_init : Alone ({} : Queues κ φ) where
  one := fun _ _ _ ⟨_, h⟩ => nomatch h
  turns _ := .inr ⟨fun _ _ h => (nomatch h), rfl⟩

/-- **First in, first out.** However arrivals, steps of drain loops, closed connections and cleared
maps interleave, over any number of connections: while no call of `process_frame` panics, and no
arrival that has to create its queue finds a drain loop of its connection left over, a connection has
one drain loop at most; its frames are processed one after the other in the order of arrival, none
twice; and while frames of it wait it has a drain loop. -/
theorem queues_fifo {s : Queues κ φ} {labels : List (QueueLabel κ φ)}
    (run : exec Queues.step {} labels = some s) (orderly : Meets Queues.step Orderly {} labels) :
    (∀ n n' k, s.Drains n k → s.Drains n' k → n = n') ∧
      (∀ k, Turns s k ∧ (s.begun k).Sublist (s.arrived k)) ∧
      ∀ k, s.items k ≠ [] → ∃ n, s.Drains n k := by
  obtain ⟨alone, live⟩ : Alone s ∧ Live s := by
    refine exec_invariant (P := fun s => Alone s ∧ Live s) ?_ run
      orderly ⟨alone_init, live_init⟩
    intro s label t h ho hstep
    refine ⟨h.1.step h.2 ho hstep, h.2.step ?_ hstep⟩
    intro n heq
    rw [heq] at ho
    exact ho
  refine ⟨alone.one, fun k => ⟨alone.turns k, begun_sublist run k⟩, ?_⟩
  intro k hitems
  cases hqueue : s.queues k with
  | none => exact absurd (Queues.items_of_none hqueue) hitems
  | some entry => exact (live.live k entry hqueue).2

/-! ## A queue that is cleared under its drain loop -/

/-- The map is cleared while the first of two frames is processed. -/
private def clearedQueue : List (QueueLabel Unit Nat) :=
  [.arrive () 1, .drain 0, .clear, .arrive () 2, .drain 1]

/-- Two drain loops of one connection are in `process_frame`; and after a call that panics, a frame
waits for no drain loop. -/
theorem cleared_queue_gets_second_loop :
    (∃ s, exec Queues.step ({} : Queues Unit Nat) clearedQueue = some s ∧
      s.loops 0 = some ((), .working 1) ∧ s.loops 1 = some ((), .working 2)) ∧
    ∃ s, exec Queues.step ({} : Queues Unit Nat)
        [.arrive () 1, .drain 0, .panic 0, .arrive () 2] = some s ∧
      s.items () = [2] ∧ ∀ n, ¬ s.Drains n () := by
  refine ⟨⟨_, rfl, rfl, rfl⟩, _, rfl, rfl, ?_⟩
  rintro (_ | n) ⟨_, h⟩ <;> cases h

/-- Two connections, and a third frame for the first that comes while its first is processed. -/
theorem queues_fifo_two_connections : ∃ s, exec Queues.step ({} : Queues Bool Nat)
      [.arrive false 1, .arrive true 2, .drain 0, .drain 1, .arrive false 3, .drain 0, .drain 0] =
        some s ∧
    (s.loops 0 = some (false, .working 3) ∧ s.loops 1 = some (true, .working 2)) ∧
    (∀ n n' k, s.Drains n k → s.Drains n' k → n = n') ∧
    (∀ k, Turns s k ∧ (s.begun k).Sublist (s.arrived k)) ∧
    ∀ k, s.items k ≠ [] → ∃ n, s.Drains n k := by
  have orderly : Meets Queues.step Orderly ({} : Queues Bool Nat)
      [.arrive false 1, .arrive true 2, .drain 0, .drain 1, .arrive false 3, .drain 0, .drain 0] := by
    refine .cons rfl ?_ <| .cons rfl ?_ <| .cons rfl trivial <| .cons rfl trivial <|
      .cons rfl ?_ <| .cons rfl trivial <| .cons rfl trivial trivial
    · rintro - n ⟨_, h⟩
      cases h
    · rintro - (_ | n) ⟨_, h⟩ <;> cases h
    · intro h
      cases h
  exact ⟨_, rfl, ⟨rfl, rfl⟩, queues_fifo rfl orderly⟩

end RsModbus.Slave
