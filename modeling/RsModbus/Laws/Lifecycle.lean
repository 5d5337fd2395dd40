import Mathlib.Algebra.BigOperators.Group.List.Basic
import Mathlib.Algebra.GroupWithZero.Nat
import RsModbus.Laws.Queues
import RsModbus.Slave.Lifecycle

/-!
# How often a frame is processed

* `Slave.processed_once_iff`: take a frame that is published while the slave is open, and a run after it
  in which nothing that still waits is overwritten or cleared. Until no copy of the frame waits,
  `process_frame` is called with it at most once for each call of `open` since the slave was made or
  destroyed, and then exactly as often: so once, if and only if there was one such call, whatever it
  returned and whatever was closed in between.
* `Slave.reopened_processes_twice`: after `open`, `close` and `open`, it is processed twice.

`ModbusSlave.copies` counts the copies of a frame wherever they are: in the inboxes of framing tasks
that are not aborted, in the queue, or processed. Publishing adds one for each of these tasks, and no
step that `Keeps` what waits moves that number afterwards.
-/

namespace RsModbus.Slave

open Library

variable {κ φ : Type} [DecidableEq κ]

/-- The inboxes of the framing tasks that are not aborted. -/
def ModbusSlave.running (s : ModbusSlave κ φ) : List (List (κ × Numbered φ)) :=
  s.inboxes.drop s.aborted

/-- The copies of a frame of connection `k` that wait in inboxes or in the queue. -/
def ModbusSlave.waiting [DecidableEq φ] (s : ModbusSlave κ φ) (k : κ) (frame : Numbered φ) : Nat :=
  (s.running.map (·.count (k, frame))).sum + (s.queues.items k).count frame

/-- The calls of `process_frame` with a frame of connection `k`. -/
def ModbusSlave.processed [DecidableEq φ] (s : ModbusSlave κ φ) (k : κ) (frame : Numbered φ) : Nat :=
  (s.queues.begun k).count frame

/-- The copies of a frame of connection `k`. -/
def ModbusSlave.copies [DecidableEq φ] (s : ModbusSlave κ φ) (k : κ) (frame : Numbered φ) : Nat :=
  s.waiting k frame + s.processed k frame

/-- A step that loses no copy of a frame, and takes none to a task that is aborted: no framing is
published while the frame is the oldest of 64 in an inbox, no aborted task receives, the queues are not
cleared while the frame is in one, and the slave is not closed while the frame waits. -/
def ModbusSlave.Keeps [DecidableEq φ] (k : κ) (frame : Numbered φ) (s : ModbusSlave κ φ) :
    SlaveLabel κ φ → Prop
  | .publish _ _ =>
    ∀ inbox ∈ s.running, inbox.head? = some (k, frame) → inbox.length < framingCapacity
  | .receive task => s.aborted ≤ task
  | .opened _ | .physicalClose => frame ∉ s.queues.items k
  | .connectionClose k' => k' = k → frame ∉ s.queues.items k
  | .closed | .destroyed => s.waiting k frame = 0
  | .stopped _ | .drain _ | .panic _ => True

/-- The calls of `open` since the slave was made or destroyed. -/
def SlaveLabel.opensAfter (n : Nat) : SlaveLabel κ φ → Nat
  | .opened _ => n + 1
  | .destroyed => 0
  | _ => n

def opens (labels : List (SlaveLabel κ φ)) : Nat := labels.foldl SlaveLabel.opensAfter 0

/-! ## Framing tasks -/

namespace ModbusSlave

variable {s t : ModbusSlave κ φ}

theorem handle_inboxes (s : ModbusSlave κ φ) (k : κ) (frame : Numbered φ) :
    (s.handle k frame).inboxes = s.inboxes ∧ (s.handle k frame).cleanLevel = s.cleanLevel ∧
      (s.handle k frame).isOpen = s.isOpen ∧ (s.handle k frame).aborted = s.aborted ∧
      (s.handle k frame).published = s.published := by
  unfold handle
  split
  · exact ⟨rfl, rfl, rfl, rfl, rfl⟩
  split <;> exact ⟨rfl, rfl, rfl, rfl, rfl⟩

/-- What a receiving task leaves. -/
theorem receive_cases {task : Nat} (h : s.receive task = some t) :
    ∃ k frame rest, s.inboxes[task]? = some ((k, frame) :: rest) ∧
      t = handle { s with inboxes := s.inboxes.set task rest } k frame := by
  unfold receive at h
  split at h
  next k frame rest hinbox =>
    cases h
    exact ⟨k, frame, rest, hinbox, rfl⟩
  · cases h

omit [DecidableEq κ] in
/-- What is left of a task that has ended. -/
theorem stopped_cases {task : Nat} (h : s.stopped task = some t) :
    task < s.aborted ∧ t = { s with inboxes := s.inboxes.eraseIdx task, aborted := s.aborted - 1 } := by
  unfold stopped at h
  split at h
  next hlt =>
    cases h
    exact ⟨hlt, rfl⟩
  · cases h

omit [DecidableEq κ] in
theorem clean_inboxes (s : ModbusSlave κ φ) (level : Nat) :
    (s.clean level).inboxes = s.inboxes ∧ (s.clean level).aborted = s.aborted ∧
      (s.clean level).published = s.published ∧
      ((s.clean level).cleanLevel = s.cleanLevel ∨ (s.clean level).cleanLevel = level) := by
  unfold clean
  split
  · exact ⟨rfl, rfl, rfl, .inl rfl⟩
  split
  · exact ⟨rfl, rfl, rfl, .inl rfl⟩
  · exact ⟨rfl, rfl, rfl, .inr rfl⟩

/-- Besides the aborted framing tasks there are `n`, and none when the slave is destroyed. -/
structure Tasks (n : Nat) (s : ModbusSlave κ φ) : Prop where
  count : s.inboxes.length = n + s.aborted
  destroyed : s.cleanLevel = 2 → n = 0

omit [DecidableEq κ] in
/-- A step that leaves the framing tasks alone. -/
theorem Tasks.keep {n : Nat} (h : Tasks n s) (hinboxes : t.inboxes.length = s.inboxes.length)
    (haborted : t.aborted = s.aborted) (hlevel : t.cleanLevel = 2 → s.cleanLevel = 2) : Tasks n t where
  count := by rw [hinboxes, haborted, h.count]
  destroyed h2 := h.destroyed (hlevel h2)

/-- `open` adds a framing task, `destroy` aborts all, and nothing else touches those that are not
aborted. -/
theorem step_tasks {n : Nat} (h : Tasks n s) {label : SlaveLabel κ φ} (hstep : s.step label = some t) :
    Tasks (label.opensAfter n) t := by
  have hcount := h.count
  cases label with
  | opened physical =>
    cases hstep
    refine ⟨?_, fun hlevel => nomatch hlevel⟩
    show (s.inboxes ++ [[]]).length = n + 1 + s.aborted
    rw [List.length_append, List.length_singleton]
    omega
  | closed =>
    cases hstep
    unfold closed
    split
    · exact h
    · obtain ⟨hinboxes, haborted, -, hlevel⟩ := s.clean_inboxes 1
      refine h.keep (by rw [hinboxes]) haborted ?_
      intro htwo
      rcases hlevel with hlevel | hlevel <;> rw [hlevel] at htwo
      · exact htwo
      · cases htwo
  | destroyed =>
    cases hstep
    unfold destroyed
    split
    next hlevel => exact h.destroyed hlevel ▸ h
    · obtain ⟨hinboxes, -, -, -⟩ := s.clean_inboxes 2
      refine ⟨?_, fun _ => rfl⟩
      show (s.clean 2).inboxes.length = 0 + s.inboxes.length
      rw [hinboxes, Nat.zero_add]
  | publish k frame =>
    cases hstep
    exact h.keep (List.length_map ..) rfl fun hlevel => hlevel
  | receive task =>
    obtain ⟨k, frame, rest, hinbox, rfl⟩ := receive_cases hstep
    obtain ⟨hinboxes, hlevel, -, haborted, -⟩ :=
      handle_inboxes { s with inboxes := s.inboxes.set task rest } k frame
    refine h.keep ?_ haborted (fun htwo => hlevel ▸ htwo)
    rw [hinboxes]
    exact List.length_set ..
  | stopped task =>
    obtain ⟨hlt, rfl⟩ := stopped_cases hstep
    refine ⟨?_, h.destroyed⟩
    show (s.inboxes.eraseIdx task).length = n + (s.aborted - 1)
    rw [List.length_eraseIdx_of_lt (by omega), hcount]
    omega
  | drain m =>
    obtain ⟨queues, -, rfl⟩ := Option.map_eq_some_iff.mp hstep
    exact h.keep rfl rfl fun hlevel => hlevel
  | panic m =>
    obtain ⟨queues, -, rfl⟩ := Option.map_eq_some_iff.mp hstep
    exact h.keep rfl rfl fun hlevel => hlevel
  | connectionClose k =>
    cases hstep
    exact h.keep rfl rfl fun hlevel => hlevel
  | physicalClose =>
    cases hstep
    exact h.keep rfl rfl fun hlevel => hlevel

/-- After a run there is a framing task for each call of `open` since the last `destroy`. -/
theorem run_tasks {n : Nat} {labels : List (SlaveLabel κ φ)} (run : exec step s labels = some t)
    (h : Tasks n s) : Tasks (labels.foldl SlaveLabel.opensAfter n) t := by
  induction labels generalizing s n with
  | nil =>
    cases run
    exact h
  | cons label labels ih =>
    obtain ⟨u, hstep, hrest⟩ := exec_cons_eq_some run
    rw [List.foldl_cons]
    exact ih hrest (step_tasks h hstep)

end ModbusSlave

/-! ## Numbers -/

namespace ModbusSlave

variable {s t : ModbusSlave κ φ}

/-- Numbers are given out once. -/
theorem published_le {label : SlaveLabel κ φ} (h : s.step label = some t) :
    s.published ≤ t.published := by
  cases label with
  | closed =>
    cases h
    unfold closed
    split
    · exact Nat.le_refl _
    · exact Nat.le_of_eq (s.clean_inboxes 1).2.2.1.symm
  | destroyed =>
    cases h
    unfold destroyed
    split
    · exact Nat.le_refl _
    · exact Nat.le_of_eq (s.clean_inboxes 2).2.2.1.symm
  | receive task =>
    obtain ⟨k, frame, rest, -, rfl⟩ := receive_cases h
    obtain ⟨-, -, -, -, hpublished⟩ :=
      handle_inboxes { s with inboxes := s.inboxes.set task rest } k frame
    exact Nat.le_of_eq hpublished.symm
  | stopped task =>
    obtain ⟨-, rfl⟩ := stopped_cases h
    exact Nat.le_refl _
  | drain n =>
    obtain ⟨queues, -, rfl⟩ := Option.map_eq_some_iff.mp h
    exact Nat.le_refl _
  | panic n =>
    obtain ⟨queues, -, rfl⟩ := Option.map_eq_some_iff.mp h
    exact Nat.le_refl _
  | publish k frame =>
    cases h
    exact Nat.le_succ _
  | opened physical =>
    cases h
    exact Nat.le_refl _
  | connectionClose k =>
    cases h
    exact Nat.le_refl _
  | physicalClose =>
    cases h
    exact Nat.le_refl _

/-- Inboxes hold no more than the channel, and every number was given out. -/
structure Counted (s : ModbusSlave κ φ) : Prop where
  bounded : ∀ inbox ∈ s.inboxes, inbox.length ≤ framingCapacity
  unread : ∀ inbox ∈ s.inboxes, ∀ x ∈ inbox, x.2.1 < s.published
  held : ∀ k, ∀ frame ∈ s.queues.begun k ++ s.queues.items k, frame.1 < s.published

omit [DecidableEq κ] in
/-- The queues hold nothing new. -/
theorem Counted.queues (h : Counted s) {queues : Queues κ (Numbered φ)}
    (hheld : ∀ k, ∀ frame ∈ queues.begun k ++ queues.items k,
      frame ∈ s.queues.begun k ++ s.queues.items k) : Counted { s with queues := queues } where
  bounded := h.bounded
  unread := h.unread
  held k frame hmem := h.held k frame (hheld k frame hmem)

omit [DecidableEq κ] in
/-- A queue that is cleared keeps what has begun. -/
theorem Counted.clear (h : Counted s) : Counted { s with queues := s.queues.clear } := by
  refine h.queues ?_
  intro k frame hmem
  rw [show s.queues.clear.items k = [] from rfl, List.append_nil] at hmem
  exact List.mem_append_left _ hmem

omit [DecidableEq κ] in
theorem Counted.clean (h : Counted s) (level : Nat) : Counted (s.clean level) := by
  unfold ModbusSlave.clean
  split
  · exact h
  split
  · exact h
  · have hclear := h.clear
    exact ⟨hclear.bounded, hclear.unread, hclear.held⟩

/-- A frame that is handled is held by the queue or has begun. -/
theorem held_handle (s : ModbusSlave κ φ) (k' : κ) (frame' : Numbered φ) (k : κ)
    {frame : Numbered φ}
    (h : frame ∈ (s.handle k' frame').queues.begun k ++ (s.handle k' frame').queues.items k) :
    frame = frame' ∨ frame ∈ s.queues.begun k ++ s.queues.items k := by
  have hlog : ∀ {frames : κ → List (Numbered φ)}, frame ∈ Queues.log frames k' frame' k →
      frame = frame' ∨ frame ∈ frames k := by
    intro frames hmem
    by_cases hk : k = k'
    · subst hk
      rw [Queues.log_self] at hmem
      rcases List.mem_append.mp hmem with hold | hnew
      · exact .inr hold
      · exact .inl (List.mem_singleton.mp hnew)
    · rw [Queues.log_of_ne hk] at hmem
      exact .inr hmem
  unfold handle at h
  split at h
  · exact .inr h
  split at h
  · rcases List.mem_append.mp h with hbegun | hitems
    · exact (hlog hbegun).imp_right (List.mem_append_left _)
    · exact .inr (List.mem_append_right _ hitems)
  · obtain ⟨hbegun, -, hitems⟩ := s.queues.enqueueAndDrain_held k' frame'
    rcases List.mem_append.mp h with hmem | hmem
    · rw [hbegun] at hmem
      exact .inr (List.mem_append_left _ hmem)
    · rw [hitems] at hmem
      split at hmem
      next hk =>
        subst hk
        rcases List.mem_append.mp hmem with hold | hnew
        · exact .inr (List.mem_append_right _ hold)
        · exact .inl (List.mem_singleton.mp hnew)
      · exact .inr (List.mem_append_right _ hmem)

omit [DecidableEq κ] in
/-- What is published has the number that was next. -/
theorem Counted.publish (h : Counted s) (k : κ) (frame : φ) : Counted (s.publish k frame) where
  bounded inbox hmem := by
    obtain ⟨inbox, -, rfl⟩ := List.mem_map.mp hmem
    exact length_pushLast_le (by decide)
  unread inbox hmem x hx := by
    obtain ⟨inbox, hinbox, rfl⟩ := List.mem_map.mp hmem
    rcases mem_of_mem_pushLast hx with hold | rfl
    · exact Nat.lt_succ_of_lt (h.unread inbox hinbox x hold)
    · exact Nat.lt_succ_self _
  held k' frame' hmem := Nat.lt_succ_of_lt (h.held k' frame' hmem)

/-- What is received was in an inbox. -/
theorem Counted.receive (h : Counted s) {task : Nat} (hstep : s.receive task = some t) :
    Counted t := by
  obtain ⟨k, frame, rest, hinbox, rfl⟩ := receive_cases hstep
  have hmem := List.mem_of_getElem? hinbox
  have hset : ∀ inbox ∈ s.inboxes.set task rest, ∃ inbox' ∈ s.inboxes,
      inbox.length ≤ inbox'.length ∧ ∀ x ∈ inbox, x ∈ inbox' := by
    intro inbox hinbox'
    rcases List.mem_or_eq_of_mem_set hinbox' with hold | rfl
    · exact ⟨inbox, hold, Nat.le_refl _, fun x hx => hx⟩
    · exact ⟨_, hmem, Nat.le_succ _, fun x hx => List.mem_cons_of_mem _ hx⟩
  obtain ⟨hinboxes, -, -, -, hpublished⟩ :=
    handle_inboxes { s with inboxes := s.inboxes.set task rest } k frame
  refine ⟨?_, ?_, ?_⟩
  · intro inbox hinbox'
    rw [hinboxes] at hinbox'
    obtain ⟨inbox', hmem', hlength, -⟩ := hset inbox hinbox'
    exact Nat.le_trans hlength (h.bounded inbox' hmem')
  · intro inbox hinbox' x hx
    rw [hinboxes] at hinbox'
    obtain ⟨inbox', hmem', -, hsub⟩ := hset inbox hinbox'
    rw [hpublished]
    exact h.unread inbox' hmem' x (hsub x hx)
  · intro k' frame' hmem'
    rw [hpublished]
    rcases held_handle _ k frame k' hmem' with rfl | hold
    · exact h.unread _ hmem _ List.mem_cons_self
    · exact h.held k' frame' hold

theorem Counted.step (h : Counted s) {label : SlaveLabel κ φ} (hstep : s.step label = some t) :
    Counted t := by
  cases label with
  | opened physical =>
    cases hstep
    have hclear := h.clear
    have hinboxes : ∀ inbox ∈ s.inboxes ++ [[]], inbox ∈ s.inboxes ∨ inbox = [] := by
      intro inbox hmem
      exact (List.mem_append.mp hmem).imp_right List.mem_singleton.mp
    refine ⟨?_, ?_, hclear.held⟩
    · intro inbox hmem
      rcases hinboxes inbox hmem with hold | rfl
      · exact h.bounded inbox hold
      · exact Nat.zero_le _
    · intro inbox hmem
      rcases hinboxes inbox hmem with hold | rfl
      · exact h.unread inbox hold
      · exact List.forall_mem_nil _
  | closed =>
    cases hstep
    unfold closed
    split
    · exact h
    · exact h.clean 1
  | destroyed =>
    cases hstep
    unfold destroyed
    split
    · exact h
    · have hclean := h.clean 2
      exact ⟨hclean.bounded, hclean.unread, hclean.held⟩
  | publish k frame =>
    cases hstep
    exact h.publish k frame
  | receive task => exact h.receive hstep
  | stopped task =>
    obtain ⟨-, rfl⟩ := stopped_cases hstep
    exact ⟨fun inbox hmem => h.bounded inbox (List.mem_of_mem_eraseIdx hmem),
      fun inbox hmem => h.unread inbox (List.mem_of_mem_eraseIdx hmem), h.held⟩
  | drain n =>
    obtain ⟨queues, hqueues, rfl⟩ := Option.map_eq_some_iff.mp hstep
    refine h.queues ?_
    intro k frame hmem
    rwa [(Queues.drainLoop_held hqueues).2 k] at hmem
  | panic n =>
    obtain ⟨queues, hqueues, rfl⟩ := Option.map_eq_some_iff.mp hstep
    rw [Queues.step] at hqueues
    split at hqueues
    · cases hqueues
      exact h.queues fun k frame hmem => hmem
    · cases hqueues
  | connectionClose k =>
    cases hstep
    refine h.queues ?_
    intro k' frame hmem
    obtain ⟨hbegun, -, hitems⟩ := s.queues.connectionClose_held k
    rw [hbegun, hitems] at hmem
    rcases List.mem_append.mp hmem with hmem | hmem
    · exact List.mem_append_left _ hmem
    · split at hmem
      · cases hmem
      · exact List.mem_append_right _ hmem
  | physicalClose =>
    cases hstep
    exact h.clear

end ModbusSlave

/-! ## Copies of a frame -/

namespace ModbusSlave

variable {s t : ModbusSlave κ φ}

section Inboxes

variable {α : Type} {inboxes : List (List α)}

/-- `List.count_cons` with an equality for its condition. -/
theorem count_cons_ite [BEq α] [LawfulBEq α] [DecidableEq α] (a b : α) (as : List α) :
    (a :: as).count b = as.count b + if a = b then 1 else 0 := by
  rw [List.count_cons]
  by_cases h : a = b <;> simp [h]

/-- A value that is sent is one more in each inbox, and what is waited for is overwritten in none. -/
theorem publish_inboxes [BEq α] [LawfulBEq α] [DecidableEq α] {cap : Nat} (hcap : 0 < cap)
    (inboxes : List (List α)) (a b : α) (hbounded : ∀ inbox ∈ inboxes, inbox.length ≤ cap)
    (hkept : ∀ inbox ∈ inboxes, inbox.head? = some b → inbox.length < cap) :
    ((inboxes.map (pushLast cap · a)).map (·.count b)).sum =
      (inboxes.map (·.count b)).sum + if a = b then inboxes.length else 0 := by
  induction inboxes with
  | nil => simp
  | cons inbox inboxes ih =>
    obtain ⟨hbound, hbounded⟩ := List.forall_mem_cons.mp hbounded
    obtain ⟨hkeep, hkept⟩ := List.forall_mem_cons.mp hkept
    rw [List.map_cons, List.map_cons, List.sum_cons, ih hbounded hkept, List.map_cons, List.sum_cons,
      count_pushLast hcap hbound hkeep]
    split
    · rw [List.length_cons]
      omega
    · omega

/-- A value that is received leaves its inbox, in any measure of the inboxes. -/
theorem receive_inboxes {task : Nat} {a : α} {rest : List α} (h : inboxes[task]? = some (a :: rest))
    (measure : List α → Nat) {d : Nat} (hmeasure : measure (a :: rest) = measure rest + d) :
    (inboxes.map measure).sum = ((inboxes.set task rest).map measure).sum + d := by
  induction inboxes generalizing task with
  | nil => cases h
  | cons inbox inboxes ih =>
    cases task with
    | zero =>
      obtain rfl := Option.some.inj h
      rw [List.map_cons, List.sum_cons, List.set_cons_zero, List.map_cons, List.sum_cons, hmeasure]
      omega
    | succ task =>
      rw [List.getElem?_cons_succ] at h
      rw [List.map_cons, List.sum_cons, ih h, List.set_cons_succ, List.map_cons, List.sum_cons]
      omega

end Inboxes

omit [DecidableEq κ] in
/-- The inboxes that are left when task `task` receives. -/
theorem running_set {task : Nat} (htask : s.aborted ≤ task) (rest : List (κ × Numbered φ)) :
    running { s with inboxes := s.inboxes.set task rest } =
      s.running.set (task - s.aborted) rest := by
  show (s.inboxes.set task rest).drop s.aborted = (s.inboxes.drop s.aborted).set _ rest
  rw [List.set_drop, Nat.add_sub_cancel' htask]

omit [DecidableEq κ] in
/-- A task that ends was aborted. -/
theorem running_stopped {task : Nat} (h : s.stopped task = some t) : t.running = s.running := by
  obtain ⟨hlt, rfl⟩ := stopped_cases h
  show (s.inboxes.eraseIdx task).drop (s.aborted - 1) = s.inboxes.drop s.aborted
  rw [List.eraseIdx_eq_take_drop_succ]
  apply List.ext_getElem?
  intro i
  grind

variable [DecidableEq φ] {k : κ} {frame : Numbered φ}

/-- A framing that an open slave's task handles is in the queue or processed. -/
theorem handle_held (s : ModbusSlave κ φ) (hopen : s.isOpen) (k' : κ) (frame' : Numbered φ) (k : κ)
    (frame : Numbered φ) :
    ((s.handle k' frame').queues.items k).count frame +
        ((s.handle k' frame').queues.begun k).count frame =
      (s.queues.items k).count frame + (s.queues.begun k).count frame +
        if (k', frame') = (k, frame) then 1 else 0 := by
  have hadd : ∀ frames : List (Numbered φ),
      (if k = k' then frames ++ [frame'] else frames).count frame =
        frames.count frame + if (k', frame') = (k, frame) then 1 else 0 := by
    intro frames
    by_cases hk : k = k'
    · subst hk
      simp [List.count_cons]
    · simp [hk, Ne.symm hk]
  unfold handle
  rw [if_neg (not_not_intro hopen)]
  split
  · show (s.queues.items k).count frame + (Queues.log s.queues.begun k' frame' k).count frame = _
    have hlog : Queues.log s.queues.begun k' frame' k =
        if k = k' then s.queues.begun k ++ [frame'] else s.queues.begun k := by
      by_cases hk : k = k'
      · subst hk
        rw [Queues.log_self, if_pos rfl]
      · rw [Queues.log_of_ne hk, if_neg hk]
    rw [hlog, hadd, Nat.add_assoc]
  · obtain ⟨hbegun, -, hitems⟩ := s.queues.enqueueAndDrain_held k' frame'
    have hitems' : (s.queues.enqueueAndDrain k' frame').items k =
        if k = k' then s.queues.items k ++ [frame'] else s.queues.items k := by
      rw [hitems]
      split
      next hk => rw [hk]
      · rfl
    rw [hbegun, hitems', hadd]
    omega

/-- Queues that are left alone, or lose nothing that is waited for, leave the copies. -/
theorem copies_of_parts (hrunning : t.running = s.running) (hbegun : t.queues.begun = s.queues.begun)
    (hitems : (t.queues.items k).count frame = (s.queues.items k).count frame) :
    t.waiting k frame = s.waiting k frame ∧ t.copies k frame = s.copies k frame := by
  have hwaiting : t.waiting k frame = s.waiting k frame := by rw [waiting, waiting, hrunning, hitems]
  refine ⟨hwaiting, ?_⟩
  rw [copies, copies, processed, processed, hwaiting, hbegun]

/-- A slave that is closed while the frame does not wait. -/
theorem copies_clean (h : s.waiting k frame = 0) (level : Nat) :
    (s.clean level).waiting k frame = 0 ∧ (s.clean level).copies k frame = s.copies k frame := by
  unfold clean
  split
  · exact ⟨h, rfl⟩
  split
  · exact ⟨h, rfl⟩
  · have hitems : (s.queues.items k).count frame = 0 := Nat.eq_zero_of_add_eq_zero_left h
    obtain ⟨hwaiting, hcopies⟩ :
        waiting { s with isOpen := false, queues := s.queues.clear, cleanLevel := level } k frame =
            s.waiting k frame ∧
          copies { s with isOpen := false, queues := s.queues.clear, cleanLevel := level } k frame =
            s.copies k frame := copies_of_parts rfl rfl hitems.symm
    exact ⟨hwaiting.trans h, hcopies⟩

/-- A slave that is destroyed while the frame does not wait. -/
theorem copies_destroyed (h : s.waiting k frame = 0) :
    waiting { s.clean 2 with aborted := s.inboxes.length } k frame = 0 ∧
      copies { s.clean 2 with aborted := s.inboxes.length } k frame = s.copies k frame := by
  obtain ⟨hwaiting, hcopies⟩ := copies_clean h 2
  obtain ⟨hinboxes, -⟩ := s.clean_inboxes 2
  have hrunning : (s.clean 2).inboxes.drop s.inboxes.length = [] := by
    rw [hinboxes, List.drop_length]
  have hnone : waiting { s.clean 2 with aborted := s.inboxes.length } k frame = 0 := by
    rw [waiting, running, hrunning, Nat.eq_zero_of_add_eq_zero_left hwaiting]
    rfl
  refine ⟨hnone, ?_⟩
  rw [← hcopies, copies, copies, hnone, hwaiting]
  rfl

/-- A later framing overwrites no copy that is not the oldest of a full inbox. -/
theorem copies_publish (h : Counted s) (hnumber : frame.1 < s.published) (k' : κ) (frame' : φ)
    (kept : s.Keeps k frame (.publish k' frame')) :
    (s.publish k' frame').waiting k frame = s.waiting k frame ∧
      (s.publish k' frame').copies k frame = s.copies k frame := by
  have hrunning : (s.publish k' frame').running =
      s.running.map (pushLast framingCapacity · (k', s.published, frame')) := List.map_drop.symm
  have hne : (k', s.published, frame') ≠ (k, frame) := by
    rintro heq
    cases heq
    exact Nat.lt_irrefl _ hnumber
  have hsum := publish_inboxes (show 0 < 64 by decide) _ (k', s.published, frame') (k, frame)
    (fun inbox hmem => h.bounded inbox (List.mem_of_mem_drop hmem)) kept
  rw [if_neg hne, Nat.add_zero] at hsum
  have hwaiting : (s.publish k' frame').waiting k frame = s.waiting k frame := by
    rw [waiting, waiting, hrunning]
    exact congrArg (· + _) hsum
  refine ⟨hwaiting, ?_⟩
  rw [copies, copies, hwaiting]
  rfl

/-- A copy that a task receives goes into the queue or is processed; a closed slave drops other frames
only. -/
theorem copies_receive {task : Nat} (htask : s.aborted ≤ task)
    (hopen : s.isOpen ∨ s.waiting k frame = 0) (hstep : s.receive task = some t) :
    (t.isOpen ∨ t.waiting k frame = 0) ∧ t.copies k frame = s.copies k frame := by
  obtain ⟨k', frame', rest, hinbox, rfl⟩ := receive_cases hstep
  have hget : s.running[task - s.aborted]? = some ((k', frame') :: rest) := by
    rw [running, List.getElem?_drop, Nat.add_sub_cancel' htask, hinbox]
  have hsum := receive_inboxes hget (·.count (k, frame)) (count_cons_ite ..)
  obtain ⟨hinboxes, -, hopen', haborted', -⟩ :=
    handle_inboxes { s with inboxes := s.inboxes.set task rest } k' frame'
  have hrunning : (handle { s with inboxes := s.inboxes.set task rest } k' frame').running =
      s.running.set (task - s.aborted) rest := by
    rw [← running_set htask, running, running, hinboxes, haborted']
  rw [hopen']
  by_cases hisOpen : s.isOpen = true
  · refine ⟨.inl hisOpen, ?_⟩
    have hheld := handle_held { s with inboxes := s.inboxes.set task rest } hisOpen k' frame' k frame
    simp only [copies, waiting, processed, hrunning] at hheld ⊢
    omega
  · -- nothing of the frame waits, so what is dropped is another frame
    have hnone := hopen.resolve_left hisOpen
    have hother : (k', frame') ≠ (k, frame) := by
      intro heq
      rw [waiting, hsum, if_pos heq] at hnone
      omega
    have hclosed : handle { s with inboxes := s.inboxes.set task rest } k' frame' =
        { s with inboxes := s.inboxes.set task rest } := if_pos hisOpen
    rw [if_neg hother, Nat.add_zero] at hsum
    have hwaiting : ModbusSlave.waiting { s with inboxes := s.inboxes.set task rest } k frame =
        s.waiting k frame := by
      rw [waiting, waiting, running_set htask, ← hsum]
    rw [hclosed]
    refine ⟨.inr (hwaiting.trans hnone), ?_⟩
    rw [copies, copies, hwaiting]
    rfl

/-- **A step that keeps what waits** makes and loses no copies of a frame that was published before. -/
theorem copies_step (h : Counted s) (haborted : s.aborted ≤ s.inboxes.length)
    (hnumber : frame.1 < s.published) (hopen : s.isOpen ∨ s.waiting k frame = 0)
    {label : SlaveLabel κ φ} (kept : s.Keeps k frame label) (hstep : s.step label = some t) :
    (t.isOpen ∨ t.waiting k frame = 0) ∧ t.copies k frame = s.copies k frame := by
  -- what is left when the queue of the connection has lost nothing that is waited for
  have hparts : t.running = s.running → t.queues.begun = s.queues.begun → t.isOpen = s.isOpen →
      (t.queues.items k).count frame = (s.queues.items k).count frame →
      (t.isOpen ∨ t.waiting k frame = 0) ∧ t.copies k frame = s.copies k frame := by
    intro hrunning hbegun hisOpen hitems
    obtain ⟨hwaiting, hcopies⟩ := copies_of_parts hrunning hbegun hitems
    rw [hisOpen, hwaiting]
    exact ⟨hopen, hcopies⟩
  cases label with
  | opened physical =>
    cases hstep
    refine ⟨.inl rfl, ?_⟩
    have hrunning : s.opened.running = s.running ++ [[]] := List.drop_append_of_le_length haborted
    have hitems : (s.queues.items k).count frame = 0 := List.count_eq_zero.mpr kept
    have hsum : (s.opened.running.map (·.count (k, frame))).sum =
        (s.running.map (·.count (k, frame))).sum := by
      rw [hrunning, List.map_append, List.sum_append]
      rfl
    rw [copies, copies, waiting, waiting, hsum, hitems]
    rfl
  | closed =>
    cases hstep
    unfold closed
    split
    · exact ⟨hopen, rfl⟩
    · obtain ⟨hwaiting, hcopies⟩ := copies_clean kept 1
      exact ⟨.inr hwaiting, hcopies⟩
  | destroyed =>
    cases hstep
    unfold destroyed
    split
    · exact ⟨hopen, rfl⟩
    · obtain ⟨hwaiting, hcopies⟩ := copies_destroyed kept
      exact ⟨.inr hwaiting, hcopies⟩
  | publish k' frame' =>
    cases hstep
    obtain ⟨hwaiting, hcopies⟩ := copies_publish h hnumber k' frame' kept
    exact ⟨hopen.imp_right hwaiting.trans, hcopies⟩
  | receive task => exact copies_receive kept hopen hstep
  | stopped task =>
    have hrunning := running_stopped hstep
    obtain ⟨-, rfl⟩ := stopped_cases hstep
    exact hparts hrunning rfl rfl rfl
  | drain n =>
    obtain ⟨queues, hqueues, rfl⟩ := Option.map_eq_some_iff.mp hstep
    obtain ⟨moved, hitems, hbegun⟩ := (Queues.drainLoop_moves hqueues).2 k
    have hitems' := congrArg (List.count frame) hitems
    have hbegun' := congrArg (List.count frame) hbegun
    rw [List.count_append] at hitems' hbegun'
    simp only [copies, waiting, processed, running] at hopen ⊢
    refine ⟨hopen.imp_right ?_, ?_⟩ <;> omega
  | panic n =>
    obtain ⟨queues, hqueues, rfl⟩ := Option.map_eq_some_iff.mp hstep
    rw [Queues.step] at hqueues
    split at hqueues
    · cases hqueues
      exact hparts rfl rfl rfl rfl
    · cases hqueues
  | connectionClose k' =>
    cases hstep
    obtain ⟨hbegun, -, hitems⟩ := s.queues.connectionClose_held k'
    refine hparts rfl hbegun rfl ?_
    show ((s.queues.connectionClose k').items k).count frame = _
    rw [hitems]
    split
    next hk => rw [List.count_eq_zero.mpr (kept hk.symm), List.count_nil]
    · rfl
  | physicalClose =>
    cases hstep
    refine hparts rfl rfl rfl ?_
    rw [List.count_eq_zero.mpr kept]
    rfl

end ModbusSlave

/-! ## Everything that waits can be processed -/

namespace ModbusSlave

variable {s t : ModbusSlave κ φ}

omit [DecidableEq κ] in
theorem live_clean (h : Live s.queues) (level : Nat) : Live (s.clean level).queues := by
  unfold clean
  split
  · exact h
  split
  · exact h
  · exact h.clear

theorem live_handle (h : Live s.queues) (k : κ) (frame : Numbered φ) : Live (s.handle k frame).queues := by
  unfold handle
  split
  · exact h
  split
  · exact ⟨h.fresh, h.live⟩
  · exact h.arrive k frame

theorem live_step (h : Live s.queues) {label : SlaveLabel κ φ} (hpanic : ∀ n, label ≠ .panic n)
    (hstep : s.step label = some t) : Live t.queues := by
  cases label with
  | opened physical =>
    cases hstep
    exact h.clear
  | closed =>
    cases hstep
    unfold closed
    split
    · exact h
    · exact live_clean h 1
  | destroyed =>
    cases hstep
    unfold destroyed
    split
    · exact h
    · exact live_clean h 2
  | publish k frame =>
    cases hstep
    exact h
  | receive task =>
    obtain ⟨k, frame, rest, -, rfl⟩ := receive_cases hstep
    exact live_handle (s := { s with inboxes := s.inboxes.set task rest }) h k frame
  | stopped task =>
    obtain ⟨-, rfl⟩ := stopped_cases hstep
    exact h
  | drain n =>
    obtain ⟨queues, hqueues, rfl⟩ := Option.map_eq_some_iff.mp hstep
    exact h.drain hqueues
  | panic n => exact absurd rfl (hpanic n)
  | connectionClose k =>
    cases hstep
    exact h.connectionClose k
  | physicalClose =>
    cases hstep
    exact h.clear

/-- While no call of `process_frame` panics, every queue has its drain loop. -/
theorem live_run (h : Live s.queues) {labels : List (SlaveLabel κ φ)}
    (hpanic : ∀ n, .panic n ∉ labels) (run : exec step s labels = some t) : Live t.queues := by
  refine exec_invariant_of_mem (P := fun s => Live s.queues)
    (fun _ _ _ h hlabel hstep => live_step h hlabel hstep) run ?_ h
  rintro label hmem n rfl
  exact hpanic n hmem

/-- The steps of drain loops are steps of the slave. -/
theorem exec_drains {ns : List Nat} {queues : Queues κ (Numbered φ)}
    (run : exec Queues.step s.queues (ns.map QueueLabel.drain) = some queues) :
    exec step s (ns.map SlaveLabel.drain) = some { s with queues := queues } := by
  induction ns generalizing s with
  | nil =>
    cases run
    rfl
  | cons n ns ih =>
    obtain ⟨u, hstep, hrest⟩ := exec_cons_eq_some run
    have hfirst : s.step (.drain n) = some { s with queues := u } := by
      simp only [step, hstep, Option.map_some]
    rw [List.map_cons, exec_cons, hfirst]
    exact ih (s := { s with queues := u }) hrest

/-- The framing tasks that are not aborted can empty their inboxes. -/
theorem received [DecidableEq φ] (h : Live s.queues) (k : κ) (frame : Numbered φ) :
    ∃ (tasks : List Nat) (t : ModbusSlave κ φ),
      exec step s (tasks.map SlaveLabel.receive) = some t ∧
        Meets step (Keeps k frame) s (tasks.map SlaveLabel.receive) ∧ Live t.queues ∧
        ∀ inbox ∈ t.running, inbox = [] := by
  induction hsize : (s.running.map List.length).sum using Nat.strongRecOn generalizing s with
  | _ size ih =>
    by_cases hall : ∀ inbox ∈ s.running, inbox = []
    · exact ⟨[], s, rfl, trivial, h, hall⟩
    obtain ⟨inbox, hinbox, hne⟩ : ∃ inbox ∈ s.running, inbox ≠ [] := by simpa using hall
    obtain ⟨task, hlt, rfl⟩ := List.mem_iff_getElem.mp hinbox
    obtain ⟨⟨k', frame'⟩, rest, hcons⟩ := List.exists_cons_of_ne_nil hne
    have hget : s.running[task]? = some ((k', frame') :: rest) := by
      rw [List.getElem?_eq_getElem hlt, hcons]
    let s' : ModbusSlave κ φ := { s with inboxes := s.inboxes.set (s.aborted + task) rest }
    have hfirst : s.step (.receive (s.aborted + task)) = some (s'.handle k' frame') := by
      rw [running, List.getElem?_drop] at hget
      simp only [step, receive, hget]
      rfl
    have hrunning : s'.running = s.running.set task rest := by
      rw [running_set (Nat.le_add_right ..), Nat.add_sub_cancel_left]
    obtain ⟨hinboxes, -, -, haborted, -⟩ := s'.handle_inboxes k' frame'
    have hrunning' : (s'.handle k' frame').running = s.running.set task rest := by
      rw [← hrunning, running, running, hinboxes, haborted]
    have hsum : (s.running.map List.length).sum =
        ((s'.handle k' frame').running.map List.length).sum + 1 := by
      rw [hrunning']
      exact receive_inboxes hget List.length rfl
    obtain ⟨tasks, t, hrun, hkept, hlive, hempty⟩ := ih _ (by omega)
      (live_handle (s := s') h k' frame') rfl
    refine ⟨(s.aborted + task) :: tasks, t, ?_, ?_, hlive, hempty⟩
    · rw [List.map_cons, exec_cons, hfirst]
      exact hrun
    · exact hkept.cons hfirst (Nat.le_add_right ..)

/-- An open slave can process every copy of a frame that waits. -/
theorem settles [DecidableEq φ] (h : Live s.queues) (k : κ) (frame : Numbered φ) :
    ∃ (labels : List (SlaveLabel κ φ)) (t : ModbusSlave κ φ),
      exec step s labels = some t ∧ Meets step (Keeps k frame) s labels ∧ t.waiting k frame = 0 := by
  obtain ⟨tasks, u, hreceive, hkept, hlive, hempty⟩ := received h k frame
  obtain ⟨ns, queues, hdrain, hitems⟩ := hlive.drained k
  refine ⟨tasks.map .receive ++ ns.map .drain, { u with queues := queues }, ?_, ?_, ?_⟩
  · rw [exec_append, hreceive]
    exact exec_drains hdrain
  · refine hkept.append fun _ _ => Meets.of_mem ?_ _
    intro label hlabel _
    obtain ⟨_, -, rfl⟩ := List.mem_map.mp hlabel
    trivial
  · have hnone : ∀ n ∈ u.running.map (·.count (k, frame)), n = 0 := by
      intro n hn
      obtain ⟨inbox, hinbox, rfl⟩ := List.mem_map.mp hn
      rw [hempty inbox hinbox]
      rfl
    have hsum : (u.running.map (·.count (k, frame))).sum = 0 :=
      List.sum_eq_zero_iff_forall_eq_nat.mpr hnone
    show (u.running.map (·.count (k, frame))).sum + (queues.items k).count frame = 0
    rw [hsum, hitems]
    rfl

end ModbusSlave

/-! ## Once -/

/-- A slave that has just been made. -/
def ModbusSlave.withOptions (concurrent : Bool) : ModbusSlave κ φ where
  concurrent := concurrent

section Once

variable [DecidableEq φ] {concurrent : Bool} {labels rest : List (SlaveLabel κ φ)}
  {s t : ModbusSlave κ φ} {k : κ} {frame : φ}

omit [DecidableEq φ] in
/-- What holds in every run from a slave that has just been made. -/
theorem run_counted (run : exec ModbusSlave.step (.withOptions concurrent) labels = some s) :
    s.Tasks (opens labels) ∧ s.Counted := by
  refine ⟨ModbusSlave.run_tasks run ⟨rfl, fun _ => rfl⟩, ?_⟩
  exact exec_invariant' (fun _ _ _ h hstep => h.step hstep) run
    ⟨List.forall_mem_nil _, List.forall_mem_nil _, fun _ => List.forall_mem_nil _⟩

/-- Publishing a framing makes a copy for each framing task that is not aborted. -/
theorem publish_copies (htasks : s.Tasks (opens labels)) (hcounted : s.Counted) :
    (s.publish k frame).copies k (s.published, frame) = opens labels := by
  have hfresh : ∀ inbox ∈ s.running, (k, s.published, frame) ∉ inbox := by
    intro inbox hinbox hmem
    exact Nat.lt_irrefl _ (hcounted.unread inbox (List.mem_of_mem_drop hinbox) _ hmem)
  have hheld : (s.published, frame) ∉ s.queues.begun k ++ s.queues.items k :=
    fun hmem => Nat.lt_irrefl _ (hcounted.held k _ hmem)
  rw [List.mem_append, not_or] at hheld
  have hzero : (s.running.map (·.count (k, s.published, frame))).sum = 0 := by
    refine List.sum_eq_zero_iff_forall_eq_nat.mpr ?_
    intro n hn
    obtain ⟨inbox, hinbox, rfl⟩ := List.mem_map.mp hn
    exact List.count_eq_zero.mpr (hfresh inbox hinbox)
  have hsum := ModbusSlave.publish_inboxes (show 0 < 64 by decide) s.running (k, s.published, frame)
    (k, s.published, frame) (fun inbox hmem => hcounted.bounded inbox (List.mem_of_mem_drop hmem))
    (fun inbox hmem hhead => absurd (List.mem_of_mem_head? hhead) (hfresh inbox hmem))
  rw [hzero, if_pos rfl, Nat.zero_add] at hsum
  have hrunning : (s.publish k frame).running =
      s.running.map (pushLast framingCapacity · (k, s.published, frame)) := List.map_drop.symm
  have hlength : s.running.length = opens labels := by
    rw [ModbusSlave.running, List.length_drop, htasks.count, Nat.add_sub_cancel]
  have hitems : ((s.publish k frame).queues.items k).count (s.published, frame) = 0 :=
    List.count_eq_zero.mpr hheld.2
  have hbegun : ((s.publish k frame).queues.begun k).count (s.published, frame) = 0 :=
    List.count_eq_zero.mpr hheld.1
  rw [ModbusSlave.copies, ModbusSlave.waiting, ModbusSlave.processed, hitems, hbegun, hrunning,
    ← hlength]
  exact hsum

/-- What a run after the publication of a frame keeps. -/
structure Followed (k : κ) (frame : Numbered φ) (copies : Nat) (s : ModbusSlave κ φ) : Prop where
  tasks : ∃ n, s.Tasks n
  counted : s.Counted
  number : frame.1 < s.published
  awake : s.isOpen ∨ s.waiting k frame = 0
  copies : s.copies k frame = copies

theorem followed (run : exec ModbusSlave.step (.withOptions concurrent) labels = some s)
    (hopen : s.isOpen) (after : exec ModbusSlave.step (s.publish k frame) rest = some t)
    (kept : Meets ModbusSlave.step (ModbusSlave.Keeps k (s.published, frame)) (s.publish k frame) rest) :
    Followed k (s.published, frame) (opens labels) t := by
  obtain ⟨htasks, hcounted⟩ := run_counted run
  have hpublish : s.step (.publish k frame) = some (s.publish k frame) := rfl
  refine exec_invariant ?_ after kept ⟨⟨_, ModbusSlave.step_tasks htasks hpublish⟩,
    hcounted.step hpublish, Nat.lt_succ_self _, .inl hopen, publish_copies htasks hcounted⟩
  intro u label v hu hkeeps hstep
  obtain ⟨n, htasks⟩ := hu.tasks
  obtain ⟨hawake, hcopies⟩ := ModbusSlave.copies_step hu.counted
    (by rw [htasks.count]; exact Nat.le_add_left ..) hu.number hu.awake hkeeps hstep
  exact ⟨⟨_, ModbusSlave.step_tasks htasks hstep⟩, hu.counted.step hstep,
    Nat.lt_of_lt_of_le hu.number (ModbusSlave.published_le hstep), hawake, hcopies.trans hu.copies⟩

/-- **Once, if and only if `open` was called once.** However `open` (failed or not), `close`,
`destroy`, frames, closed connections and steps of the tasks came before, take a frame published while
the slave is open, and a run after it whose steps all keep what waits. `process_frame` is called with
it at most once for each call of `open` since the slave was made or destroyed. Unless a call of
`process_frame` panicked, the tasks can go on until no copy of it waits. And when none waits,
`process_frame` has been called with it once if and only if `open` has been called once. -/
theorem processed_once_iff
    (run : exec ModbusSlave.step (.withOptions concurrent) labels = some s) (hopen : s.isOpen)
    (after : exec ModbusSlave.step (s.publish k frame) rest = some t)
    (kept : Meets ModbusSlave.step (ModbusSlave.Keeps k (s.published, frame)) (s.publish k frame) rest) :
    t.processed k (s.published, frame) ≤ opens labels ∧
      ((∀ n, .panic n ∉ labels ++ rest) → ∃ more u,
        exec ModbusSlave.step (s.publish k frame) (rest ++ more) = some u ∧
          Meets ModbusSlave.step (ModbusSlave.Keeps k (s.published, frame)) (s.publish k frame)
            (rest ++ more) ∧
          u.waiting k (s.published, frame) = 0) ∧
      (t.waiting k (s.published, frame) = 0 →
        (t.processed k (s.published, frame) = 1 ↔ opens labels = 1)) := by
  have hcopies := (followed run hopen after kept).copies
  refine ⟨?_, ?_, ?_⟩
  · rw [← hcopies]
    exact Nat.le_add_left ..
  · intro hpanic
    have hlive : Live t.queues := by
      have hbefore := ModbusSlave.live_run live_init
        (fun n hmem => hpanic n (List.mem_append_left _ hmem)) run
      exact ModbusSlave.live_run (s := s.publish k frame) hbefore
        (fun n hmem => hpanic n (List.mem_append_right _ hmem)) after
    obtain ⟨more, u, hmore, hkept, hsettled⟩ := ModbusSlave.settles hlive k (s.published, frame)
    refine ⟨more, u, ?_, kept.append ?_, hsettled⟩
    · rw [exec_append, after]
      exact hmore
    · intro v hv
      cases after.symm.trans hv
      exact hkept
  · intro hsettled
    rw [ModbusSlave.copies, hsettled, Nat.zero_add] at hcopies
    rw [hcopies]

end Once

/-- After `open`, `close` and `open`, each of two framing tasks queues the frame. -/
theorem reopened_processes_twice : ∃ s t : ModbusSlave Unit Nat,
    exec ModbusSlave.step (.withOptions false) [.opened (.ok ()), .closed, .opened (.ok ())] = some s ∧
      s.isOpen ∧
      exec ModbusSlave.step (s.publish () 6) [.receive 0, .receive 1, .drain 0, .drain 0, .drain 0] =
        some t ∧
      t.waiting () (0, 6) = 0 ∧ t.processed () (0, 6) = 2 :=
  ⟨_, _, rfl, rfl, rfl, rfl, rfl⟩

/-- A failed `open` and a `destroy` come before the one `open` that counts. A frame of another
connection is published, received and dropped while the frame waits. -/
theorem processed_once_iff_opened : ∃ s t : ModbusSlave Bool Nat,
    exec ModbusSlave.step (.withOptions false) [.opened (.error .portAlreadyOpen), .destroyed,
        .stopped 0, .opened (.ok ())] = some s ∧
      exec ModbusSlave.step (s.publish true 6)
        [.publish false 7, .receive 0, .receive 0, .connectionClose false, .drain 0] = some t ∧
      t.processed true (0, 6) = 1 := by
  let s : ModbusSlave Bool Nat := { concurrent := false, isOpen := true, inboxes := [[]] }
  have run : exec ModbusSlave.step (.withOptions false) [.opened (.error .portAlreadyOpen), .destroyed,
      .stopped 0, .opened (.ok ())] = some s := rfl
  obtain ⟨t, after, hsettled, kept⟩ : ∃ t, exec ModbusSlave.step (s.publish true 6)
        [.publish false 7, .receive 0, .receive 0, .connectionClose false, .drain 0] = some t ∧
      t.waiting true (0, 6) = 0 ∧
      Meets ModbusSlave.step (ModbusSlave.Keeps true (0, 6)) (s.publish true 6)
        [.publish false 7, .receive 0, .receive 0, .connectionClose false, .drain 0] := by
    refine ⟨_, rfl, rfl, ?_⟩
    refine .cons rfl (show ∀ inbox ∈ _, _ → _ by decide) ?_
    refine .cons rfl (show 0 ≤ 0 by decide) (.cons rfl (show 0 ≤ 0 by decide) ?_)
    exact .cons rfl (fun h => by cases h) (.cons rfl trivial trivial)
  exact ⟨s, t, run, after, ((processed_once_iff run rfl after kept).2.2 hsettled).mpr rfl⟩

end RsModbus.Slave
