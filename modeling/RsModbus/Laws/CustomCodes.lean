import RsModbus.Laws.Lifecycle
import RsModbus.Laws.Outcomes
import RsModbus.Slave.CustomCodes

/-!
# Registrations and the dispatch of custom codes

`customDispatch_follows_iff`: in every run of registrations, calls of `open`, `close` and `destroy`,
frames and steps of the slave's tasks, a frame with a custom code is dispatched as the table of the
moment says if and only if the code has the same handler in it as when the session was opened whose
framing task received the frame, or spawned the drain loop that processes it.

What is registered after a sequence of steps is `registered`, which looks at the calls alone. Every
copy in the slave is what was registered at its `open` (`Tracked`).
-/

namespace RsModbus.Slave

open Library

variable {κ σ φ : Type}

/-! ## What is registered -/

/-- What the calls on a slave have registered, and whether it is destroyed. -/
structure Registry (σ : Type) where
  table : CustomFcs σ := fun _ => none
  destroyed : Bool := false

/-- After one more step: only `destroy` touches the table besides the registrations, and only if the
slave was not destroyed. -/
def Registry.after (r : Registry σ) : DispatchLabel κ σ → Registry σ
  | .addCustomFunctionCode cfc => { r with table := Function.update r.table cfc.fc (some cfc) }
  | .removeCustomFunctionCode fc => { r with table := Function.update r.table fc none }
  | .slave (.opened _) => { r with destroyed := false }
  | .slave .destroyed => if r.destroyed then r else ⟨fun _ => none, true⟩
  | _ => r

def registry (labels : List (DispatchLabel κ σ)) : Registry σ := labels.foldl Registry.after {}

/-- The table after a sequence of steps. -/
def registered (labels : List (DispatchLabel κ σ)) : CustomFcs σ := (registry labels).table

theorem registry_snoc (labels : List (DispatchLabel κ σ)) (label : DispatchLabel κ σ) :
    registry (labels ++ [label]) = (registry labels).after label := by
  rw [registry, List.foldl_append]
  rfl

/-- The handler that a table has for a code. -/
def handlerOf (customFcs : CustomFcs σ) (fc : UInt8) :
    Option (Bytes → UInt8 → σ → Except ModbusError Bytes × σ) :=
  (customFcs fc).bind (·.handle)

/-- The answer of a handler to a request, and the exception when there is none. -/
def answerCustom (ctx : Context) (adu : ApplicationDataUnit) (response : SlaveResponseFn σ) :
    Option (Bytes → UInt8 → σ → Except ModbusError Bytes × σ) → SlaveM σ (Except ModbusError Unit)
  | some handler => fun w =>
    let result := handler adu.data adu.unit w.state
    let answered := result.1 |> answer ctx adu response (reply ctx adu response)
    (answered >>= fun _ => pure (.ok ())) { w with state := result.2 }
  | none => responseError ctx adu response (getErrorByCode .illegalFunction)

/-- A request is dispatched with the table `customFcs` as `table` says: to the handler that `table` has
for its code, and to the exception exactly when it has none. Two handlers may answer one request alike, so
`chosen` says which of them is called: the one that `table` has is meant, and not one that answers as it
does. -/
structure Follows (table customFcs : CustomFcs σ) (adu : ApplicationDataUnit) : Prop where
  chosen : handlerOf customFcs adu.fc = handlerOf table adu.fc
  answered : ∀ (ctx : Context) (model : ModbusSlaveModel σ) (response : SlaveResponseFn σ),
    dispatch ctx customFcs model adu response =
      answerCustom ctx adu response (handlerOf table adu.fc)

/-- Outside the built-in codes, the handler is all that matters of the table. -/
theorem follows_iff {table customFcs : CustomFcs σ} {adu : ApplicationDataUnit}
    (hfc : ¬ BuiltIn adu.fc) :
    Follows table customFcs adu ↔ handlerOf customFcs adu.fc = handlerOf table adu.fc := by
  constructor
  · exact Follows.chosen
  · intro h
    refine ⟨h, ?_⟩
    intro ctx model response
    rw [dispatch_other ctx model adu response customFcs hfc, handleCustom, ← h, handlerOf]
    cases (customFcs adu.fc).bind (·.handle) with
    | some handler => rfl
    | none => rfl

/-! ## Copies -/

section Copies

variable {labels : List (DispatchLabel κ σ)} {label : DispatchLabel κ σ} {d d' : DispatchingSlave κ σ}
  {snapshot : Snapshot σ} {held : Option (Snapshot σ)}

/-- The copy was made by an `open` among the steps, of what was registered then. -/
structure Taken (labels : List (DispatchLabel κ σ)) (snapshot : Snapshot σ) : Prop where
  opened : ∃ physical, labels[snapshot.openedAt]? = some (.slave (.opened physical))
  copied : snapshot.customFcs = registered (labels.take snapshot.openedAt)

/-- There is a copy, and it was made so. -/
def Held (labels : List (DispatchLabel κ σ)) (held : Option (Snapshot σ)) : Prop :=
  ∃ snapshot, held = some snapshot ∧ Taken labels snapshot

theorem Taken.snoc (h : Taken labels snapshot) (label : DispatchLabel κ σ) :
    Taken (labels ++ [label]) snapshot := by
  obtain ⟨physical, hopened⟩ := h.opened
  have hlt := (List.getElem?_eq_some_iff.mp hopened).1
  refine ⟨⟨physical, ?_⟩, ?_⟩
  · rw [List.getElem?_append_left hlt]
    exact hopened
  · rw [List.take_append_of_le_length (Nat.le_of_lt hlt)]
    exact h.copied

theorem Held.snoc (h : Held labels held) (label : DispatchLabel κ σ) :
    Held (labels ++ [label]) held := by
  obtain ⟨snapshot, heq, htaken⟩ := h
  exact ⟨snapshot, heq, htaken.snoc label⟩

/-- The copy that `open` makes now. -/
theorem taken_now (labels : List (DispatchLabel κ σ)) (physical : Except ModbusError Unit) :
    Taken (labels ++ [.slave (.opened physical)]) ⟨registered labels, labels.length⟩ := by
  refine ⟨⟨physical, List.getElem?_concat_length ..⟩, ?_⟩
  rw [List.take_left]

/-- Whatever holds a copy holds one that an `open` has made. -/
structure Copies (labels : List (DispatchLabel κ σ)) (d : DispatchingSlave κ σ) : Prop where
  framing : ∀ snapshot ∈ d.framingTasks, Taken labels snapshot
  loops : ∀ n, d.slave.queues.loops n ≠ none → Held labels (d.drainLoops n)
  spawned : ∀ task ∈ d.spawned, Held labels task.2
  processings : ∀ p ∈ d.processings,
    p.startedAt < labels.length ∧ Held (labels.take p.startedAt) p.snapshot

theorem Copies.snoc (h : Copies labels d) (label : DispatchLabel κ σ) :
    Copies (labels ++ [label]) d where
  framing snapshot hmem := (h.framing snapshot hmem).snoc label
  loops n hn := (h.loops n hn).snoc label
  spawned task hmem := (h.spawned task hmem).snoc label
  processings p hmem := by
    obtain ⟨hlt, hheld⟩ := h.processings p hmem
    rw [List.length_append, List.take_append_of_le_length (Nat.le_of_lt hlt)]
    exact ⟨Nat.lt_add_right _ hlt, hheld⟩

/-- A call of `process_frame` with a copy that was made before. -/
theorem Copies.process (h : Copies labels d) (hclock : d.clock = labels.length)
    (label : DispatchLabel κ σ) (frame : FramedDataUnit) (hheld : Held labels held) :
    Copies (labels ++ [label]) (d.process frame held) where
  framing := (h.snoc label).framing
  loops := (h.snoc label).loops
  spawned := (h.snoc label).spawned
  processings p hmem := by
    rcases List.mem_append.mp hmem with hold | hnew
    · exact (h.snoc label).processings p hold
    · cases List.mem_singleton.mp hnew
      show d.clock < _ ∧ Held (List.take d.clock _) held
      rw [hclock, List.take_left, List.length_append]
      exact ⟨Nat.lt_add_one _, hheld⟩

theorem Copies.retable (h : Copies labels d) (table : CustomFcs σ) (clock : Nat) :
    Copies labels { d with customFunctionCodes := table, clock := clock } :=
  ⟨h.framing, h.loops, h.spawned, h.processings⟩

/-- A step of the slave that leaves the copies, and starts no drain loop. -/
theorem Copies.move (h : Copies labels d) {slave' : ModbusSlave κ FramedDataUnit}
    (hloops : ∀ n, slave'.queues.loops n ≠ none → d.slave.queues.loops n ≠ none) :
    Copies labels { d with slave := slave' } where
  framing := h.framing
  loops n hn := h.loops n (hloops n hn)
  spawned := h.spawned
  processings := h.processings

end Copies

/-! ## Drain loops -/

section Loops

variable [DecidableEq κ] {s t : Queues κ φ} {n m : Nat}

/-- A step of a drain loop starts no other. -/
theorem Queues.loops_drainLoop (h : s.drainLoop n = some t) (hm : t.loops m ≠ none) :
    s.loops m ≠ none := by
  have hold : ∀ {k : κ} {phase : DrainPhase φ} {loop : Option (κ × DrainPhase φ)},
      s.loops n = some (k, phase) → t.loops = (s.setLoop n loop).loops → s.loops m ≠ none := by
    intro k phase loop hloop hloops
    by_cases heq : m = n
    · rw [heq, hloop]
      exact Option.some_ne_none _
    · rwa [hloops, setLoop_of_ne heq] at hm
  rcases drainLoop_cases h with ⟨k, hloop | hloop, -, rfl⟩ | ⟨k, processing, hloop, -, rfl⟩ |
    ⟨k, frame, items, processing, hloop, -, rfl⟩ | ⟨k, frame, hloop, rfl⟩ |
    ⟨k, processing, hloop, -, rfl⟩ | ⟨k, frame, items, processing, hloop, -, rfl⟩ <;>
    exact hold hloop rfl

theorem Queues.loops_panic (h : s.step (.panic n) = some t) (hm : t.loops m ≠ none) :
    s.loops m ≠ none := by
  simp only [Queues.step] at h
  split at h
  next k frame hloop =>
    cases h
    by_cases heq : m = n
    · rw [heq, hloop]
      exact Option.some_ne_none _
    · rwa [setLoop_of_ne heq] at hm
  · cases h

/-- An arrival starts the drain loop that `spawns` says. -/
theorem Queues.loops_enqueueAndDrain (s : Queues κ φ) (k : κ) (frame : φ) :
    (s.spawns k = false ∧ (s.enqueueAndDrain k frame).loops = s.loops) ∨
      s.spawns k = true ∧
        (s.enqueueAndDrain k frame).loops = Function.update s.loops s.spawned (some (k, .next)) := by
  unfold Queues.enqueueAndDrain Queues.spawns
  dsimp only
  cases ((s.queues k).getD ⟨[], false⟩).processing with
  | true => exact .inl ⟨rfl, rfl⟩
  | false => exact .inr ⟨rfl, rfl⟩

theorem Queues.loops_connectionClose (s : Queues κ φ) (k : κ) :
    (s.connectionClose k).loops = s.loops := by
  unfold Queues.connectionClose
  split <;> rfl

omit [DecidableEq κ] in
theorem ModbusSlave.loops_clean (s : ModbusSlave κ φ) (level : Nat) :
    (s.clean level).queues.loops = s.queues.loops := by
  unfold ModbusSlave.clean
  split
  · rfl
  split <;> rfl

end Loops

/-! ## Steps -/

section Steps

variable [DecidableEq κ] {labels : List (DispatchLabel κ σ)} {d d' : DispatchingSlave κ σ}

omit [DecidableEq κ] in
/-- A copy of a framing task that is there. -/
theorem held_framingTask (h : Copies labels d) {task : Nat} (htask : task < d.framingTasks.length) :
    Held labels d.framingTasks[task]? :=
  ⟨_, List.getElem?_eq_getElem htask, h.framing _ (List.getElem_mem htask)⟩

/-- A framing task hands its copy on to a task for the frame, or to a drain loop. -/
theorem Copies.handle (h : Copies labels d) {task : Nat} (htask : task < d.framingTasks.length)
    {slave : ModbusSlave κ FramedDataUnit} (hopen : slave.isOpen = d.slave.isOpen)
    (hconcurrent : slave.concurrent = d.slave.concurrent) (hqueues : slave.queues = d.slave.queues)
    (k : κ) (frame : Numbered FramedDataUnit) :
    Copies labels { (if d.slave.isOpen then d.handOn task k frame.2 else d) with
      slave := slave.handle k frame } := by
  have hheld := held_framingTask h htask
  unfold ModbusSlave.handle DispatchingSlave.handOn
  rw [hopen, hconcurrent, hqueues]
  by_cases hisOpen : d.slave.isOpen = true
  · rw [if_neg (not_not_intro hisOpen), if_pos hisOpen]
    by_cases hmode : d.slave.concurrent = true
    · rw [if_pos hmode, if_pos hmode]
      refine ⟨h.framing, h.loops, ?_, h.processings⟩
      intro entry hmem
      rcases List.mem_append.mp hmem with hold | hnew
      · exact h.spawned entry hold
      · cases List.mem_singleton.mp hnew
        exact hheld
    · rw [if_neg hmode, if_neg hmode]
      rcases d.slave.queues.loops_enqueueAndDrain k frame with ⟨hspawns, hloops⟩ | ⟨hspawns, hloops⟩
      · rw [hspawns]
        refine h.move ?_
        intro n hn
        exact hloops ▸ hn
      · rw [if_pos hspawns]
        refine ⟨h.framing, ?_, h.spawned, h.processings⟩
        intro n hn
        have hn : (d.slave.queues.enqueueAndDrain k frame).loops n ≠ none := hn
        show Held labels (Function.update d.drainLoops d.slave.queues.spawned _ n)
        by_cases heq : n = d.slave.queues.spawned
        · rw [heq, Function.update_self]
          exact hheld
        · rw [hloops, Function.update_of_ne heq] at hn
          rw [Function.update_of_ne heq]
          exact h.loops n hn
  · rw [if_pos hisOpen, if_neg hisOpen]
    exact h.move fun n hn => hqueues ▸ hn

/-- The clock, the table and the tasks of a slave after a sequence of steps. -/
structure Tracked (labels : List (DispatchLabel κ σ)) (d : DispatchingSlave κ σ) : Prop where
  clock : d.clock = labels.length
  table : d.customFunctionCodes = registered labels
  destroyed : (registry labels).destroyed = true ↔ d.slave.cleanLevel = 2
  tasks : d.framingTasks.length = d.slave.inboxes.length
  copies : Copies labels d

/-- A destroyed slave stays so until `open`. -/
theorem cleanLevel_step {slave slave' : ModbusSlave κ φ} {label : SlaveLabel κ φ}
    (h : slave.step label = some slave') : slave'.cleanLevel = 2 ↔
      match label with
      | .opened _ => False
      | .destroyed => True
      | _ => slave.cleanLevel = 2 := by
  cases label with
  | opened physical =>
    cases h
    exact iff_of_false (show ¬ 0 = 2 by decide) not_false
  | closed =>
    cases h
    unfold ModbusSlave.closed ModbusSlave.clean
    split
    · exact Iff.rfl
    next hlevel =>
      split
      · exact Iff.rfl
      · exact iff_of_false (show ¬ 1 = 2 by decide) hlevel
  | destroyed =>
    cases h
    refine iff_of_true ?_ trivial
    unfold ModbusSlave.destroyed
    split
    · assumption
    next hlevel => simp [ModbusSlave.clean, hlevel]
  | receive task =>
    obtain ⟨k, frame, rest, -, rfl⟩ := ModbusSlave.receive_cases h
    rw [(ModbusSlave.handle_inboxes _ k frame).2.1]
  | stopped task =>
    obtain ⟨-, rfl⟩ := ModbusSlave.stopped_cases h
    exact Iff.rfl
  | drain n =>
    obtain ⟨queues, -, rfl⟩ := Option.map_eq_some_iff.mp h
    exact Iff.rfl
  | panic n =>
    obtain ⟨queues, -, rfl⟩ := Option.map_eq_some_iff.mp h
    exact Iff.rfl
  | publish k frame =>
    cases h
    exact Iff.rfl
  | connectionClose k =>
    cases h
    exact Iff.rfl
  | physicalClose =>
    cases h
    exact Iff.rfl

/-- A step of the slave follows the copies. -/
theorem Tracked.follow (h : Tracked labels d) {label : SlaveLabel κ FramedDataUnit}
    {slave : ModbusSlave κ FramedDataUnit} (hstep : d.slave.step label = some slave) :
    Copies (labels ++ [.slave label]) { d.follow label with slave := slave } := by
  have hsnoc := h.copies.snoc (.slave label)
  cases label with
  | opened physical =>
    cases hstep
    refine ⟨?_, hsnoc.loops, hsnoc.spawned, hsnoc.processings⟩
    intro snapshot hmem
    rcases List.mem_append.mp hmem with hold | hnew
    · exact hsnoc.framing snapshot hold
    · cases List.mem_singleton.mp hnew
      rw [h.table, h.clock]
      exact taken_now labels physical
  | closed =>
    cases hstep
    refine hsnoc.move ?_
    unfold ModbusSlave.closed
    split
    · exact fun n hn => hn
    · rw [ModbusSlave.loops_clean]
      exact fun n hn => hn
  | destroyed =>
    cases hstep
    rw [ModbusSlave.destroyed, DispatchingSlave.follow]
    by_cases hlevel : d.slave.cleanLevel = 2
    · rw [if_pos hlevel, if_pos hlevel]
      exact hsnoc.move fun n hn => hn
    · rw [if_neg hlevel, if_neg hlevel]
      refine ⟨hsnoc.framing, ?_, hsnoc.spawned, hsnoc.processings⟩
      intro n hn
      have hn : (d.slave.clean 2).queues.loops n ≠ none := hn
      rw [ModbusSlave.loops_clean] at hn
      exact hsnoc.loops n hn
  | publish k frame =>
    cases hstep
    exact hsnoc.move fun n hn => hn
  | receive task =>
    obtain ⟨k, frame, rest, hinbox, rfl⟩ := ModbusSlave.receive_cases hstep
    have htask : task < d.framingTasks.length := by
      rw [h.tasks]
      exact (List.getElem?_eq_some_iff.mp hinbox).1
    have hfollow : d.follow (.receive task) =
        if d.slave.isOpen then d.handOn task k frame.2 else d := by
      rw [DispatchingSlave.follow, hinbox]
    let slave : ModbusSlave κ FramedDataUnit :=
      { d.slave with inboxes := d.slave.inboxes.set task rest }
    have hisOpen : slave.isOpen = d.slave.isOpen := rfl
    rw [hfollow]
    exact hsnoc.handle htask hisOpen rfl rfl k frame
  | stopped task =>
    obtain ⟨-, rfl⟩ := ModbusSlave.stopped_cases hstep
    refine ⟨?_, hsnoc.loops, hsnoc.spawned, hsnoc.processings⟩
    intro snapshot hmem
    exact hsnoc.framing snapshot (List.mem_of_mem_eraseIdx hmem)
  | drain n =>
    obtain ⟨queues, hqueues, rfl⟩ := Option.map_eq_some_iff.mp hstep
    let slave : ModbusSlave κ FramedDataUnit := { d.slave with queues := queues }
    have hloops : ∀ m, slave.queues.loops m ≠ none → d.slave.queues.loops m ≠ none :=
      fun m => Queues.loops_drainLoop hqueues
    rw [DispatchingSlave.follow]
    cases hpopped : d.slave.queues.popped n with
    | none => exact hsnoc.move hloops
    | some frame =>
      have hloop : d.slave.queues.loops n ≠ none := by
        intro hnone
        rw [Queues.popped, hnone] at hpopped
        cases hpopped
      exact (h.copies.process h.clock (.slave (.drain n)) frame.2 (h.copies.loops n hloop)).move hloops
  | panic n =>
    obtain ⟨queues, hqueues, rfl⟩ := Option.map_eq_some_iff.mp hstep
    let slave : ModbusSlave κ FramedDataUnit := { d.slave with queues := queues }
    have hloops : ∀ m, slave.queues.loops m ≠ none → d.slave.queues.loops m ≠ none :=
      fun m => Queues.loops_panic hqueues
    exact hsnoc.move hloops
  | connectionClose k =>
    cases hstep
    refine hsnoc.move ?_
    intro n hn
    have hn : (d.slave.queues.connectionClose k).loops n ≠ none := hn
    rwa [Queues.loops_connectionClose] at hn
  | physicalClose =>
    cases hstep
    exact hsnoc.move fun n hn => hn

omit [DecidableEq κ] in
theorem handOn_parts (d : DispatchingSlave κ σ) (task : Nat) (k : κ) (frame : FramedDataUnit) :
    (d.handOn task k frame).customFunctionCodes = d.customFunctionCodes ∧
      (d.handOn task k frame).framingTasks = d.framingTasks := by
  unfold DispatchingSlave.handOn
  split
  · exact ⟨rfl, rfl⟩
  split <;> exact ⟨rfl, rfl⟩

/-- What a step does to a list that has an entry for each framing task. -/
def SlaveLabel.perTask {α : Type} (fresh : α) (entries : List α) : SlaveLabel κ φ → List α
  | .opened _ => entries ++ [fresh]
  | .stopped task => entries.eraseIdx task
  | _ => entries

omit [DecidableEq κ] in
theorem SlaveLabel.length_perTask {α β : Type} {as : List α} {bs : List β}
    (h : as.length = bs.length) (a : α) (b : β) (label : SlaveLabel κ φ) :
    (label.perTask a as).length = (label.perTask b bs).length := by
  cases label with
  | opened physical =>
    show (as ++ [a]).length = (bs ++ [b]).length
    rw [List.length_append, List.length_append, h]
    rfl
  | stopped task =>
    show (as.eraseIdx task).length = (bs.eraseIdx task).length
    rw [List.length_eraseIdx, List.length_eraseIdx, h]
  | _ => exact h

omit [DecidableEq κ] in
/-- A step of the slave changes the table when it destroys, and the framing tasks when it opens or when
one ends. -/
theorem follow_parts (d : DispatchingSlave κ σ) (label : SlaveLabel κ FramedDataUnit) :
    (d.follow label).customFunctionCodes = (match label with
      | .destroyed => if d.slave.cleanLevel = 2 then d.customFunctionCodes else fun _ => none
      | _ => d.customFunctionCodes) ∧
      (d.follow label).framingTasks =
        label.perTask ⟨d.customFunctionCodes, d.clock⟩ d.framingTasks := by
  cases label with
  | destroyed =>
    rw [DispatchingSlave.follow]
    by_cases hlevel : d.slave.cleanLevel = 2
    · rw [if_pos hlevel]
      exact ⟨(if_pos hlevel).symm, rfl⟩
    · rw [if_neg hlevel]
      exact ⟨(if_neg hlevel).symm, rfl⟩
  | receive task =>
    rw [DispatchingSlave.follow]
    split
    next k frame rest hinbox =>
      split
      · exact handOn_parts d task k frame.2
      · exact ⟨rfl, rfl⟩
    · exact ⟨rfl, rfl⟩
  | drain n =>
    rw [DispatchingSlave.follow]
    split <;> exact ⟨rfl, rfl⟩
  | _ => exact ⟨rfl, rfl⟩

/-- The slave has an inbox for each of its framing tasks, whatever it does. -/
theorem length_inboxes {slave slave' : ModbusSlave κ φ} {label : SlaveLabel κ φ}
    (h : slave.step label = some slave') :
    slave'.inboxes.length = (label.perTask [] slave.inboxes).length := by
  cases label with
  | opened physical =>
    cases h
    rfl
  | closed =>
    cases h
    unfold ModbusSlave.closed
    split
    · rfl
    · exact congrArg List.length (slave.clean_inboxes 1).1
  | destroyed =>
    cases h
    unfold ModbusSlave.destroyed
    split
    · rfl
    · exact congrArg List.length (slave.clean_inboxes 2).1
  | publish k frame =>
    cases h
    exact List.length_map ..
  | receive task =>
    obtain ⟨k, frame, rest, -, rfl⟩ := ModbusSlave.receive_cases h
    rw [(ModbusSlave.handle_inboxes _ k frame).1]
    exact List.length_set ..
  | stopped task =>
    obtain ⟨-, rfl⟩ := ModbusSlave.stopped_cases h
    rfl
  | drain n =>
    obtain ⟨queues, -, rfl⟩ := Option.map_eq_some_iff.mp h
    rfl
  | panic n =>
    obtain ⟨queues, -, rfl⟩ := Option.map_eq_some_iff.mp h
    rfl
  | connectionClose k =>
    cases h
    rfl
  | physicalClose =>
    cases h
    rfl

omit [DecidableEq κ] in
/-- A call that registers or removes a code. -/
theorem Tracked.register (h : Tracked labels d) {label : DispatchLabel κ σ} {table : CustomFcs σ}
    (hafter : (registry labels).after label = { registry labels with table := table }) :
    Tracked (labels ++ [label]) { d with customFunctionCodes := table, clock := d.clock + 1 } where
  clock := by rw [List.length_append, ← h.clock]; rfl
  table := by rw [registered, registry_snoc, hafter]
  destroyed := by
    rw [registry_snoc, hafter]
    exact h.destroyed
  tasks := h.tasks
  copies := (h.copies.snoc label).retable _ _

/-- **What a step keeps.** -/
theorem Tracked.step (h : Tracked labels d) {label : DispatchLabel κ σ}
    (hstep : d.step label = some d') : Tracked (labels ++ [label]) d' := by
  obtain ⟨d₁, hact, rfl⟩ := Option.map_eq_some_iff.mp hstep
  have hlength : (labels ++ [label]).length = labels.length + 1 := List.length_append
  have hregistered : registered (labels ++ [label]) = ((registry labels).after label).table :=
    congrArg Registry.table (registry_snoc labels label)
  have htable : (registry labels).table = d.customFunctionCodes := h.table.symm
  cases label with
  | addCustomFunctionCode cfc =>
    cases hact
    apply h.register
    rw [Registry.after, htable]
    rfl
  | removeCustomFunctionCode fc =>
    cases hact
    apply h.register
    rw [Registry.after, htable]
    rfl
  | begin i =>
    rw [DispatchingSlave.act] at hact
    split at hact
    next frame held hentry =>
      cases hact
      have hheld : Held labels held := h.copies.spawned _ (List.mem_of_getElem? hentry)
      have hprocess := h.copies.process h.clock (.begin i) frame hheld
      refine ⟨by rw [hlength, ← h.clock], ?_, ?_, h.tasks, ?_⟩
      · exact htable.symm.trans hregistered.symm
      · rw [registry_snoc]
        exact h.destroyed
      · refine ⟨hprocess.framing, hprocess.loops, ?_, hprocess.processings⟩
        intro entry hmem
        exact hprocess.spawned entry (List.mem_of_mem_eraseIdx hmem)
    · cases hact
  | slave label =>
    obtain ⟨slave, hslave, rfl⟩ := Option.map_eq_some_iff.mp hact
    obtain ⟨hcodes, htasks⟩ := follow_parts d label
    have hlevel := cleanLevel_step hslave
    have hinboxes := length_inboxes hslave
    have hfollow : Copies _ { d.follow label with slave := slave } := h.follow hslave
    refine ⟨by rw [hlength, ← h.clock], ?_, ?_, ?_, hfollow.retable _ _⟩
    · show (d.follow label).customFunctionCodes = _
      rw [hregistered, hcodes]
      cases label with
      | destroyed =>
        rw [Registry.after]
        by_cases hdestroyed : d.slave.cleanLevel = 2
        · rw [if_pos (h.destroyed.mpr hdestroyed)]
          exact (if_pos hdestroyed).trans htable.symm
        · rw [if_neg (mt h.destroyed.mp hdestroyed)]
          exact if_neg hdestroyed
      | _ => exact htable.symm
    · show _ ↔ slave.cleanLevel = 2
      rw [registry_snoc, hlevel]
      cases label with
      | opened physical => exact iff_of_false nofun not_false
      | destroyed =>
        rw [Registry.after]
        refine iff_of_true ?_ trivial
        split
        · assumption
        · rfl
      | _ => exact h.destroyed
    · show (d.follow label).framingTasks.length = slave.inboxes.length
      rw [htasks, hinboxes]
      exact label.length_perTask h.tasks _ _

end Steps

section Runs

variable [DecidableEq κ] {concurrent : Bool} {labels : List (DispatchLabel κ σ)}
  {d : DispatchingSlave κ σ}

omit [DecidableEq κ] in
theorem tracked_new (concurrent : Bool) :
    Tracked ([] : List (DispatchLabel κ σ)) (.new concurrent) where
  clock := rfl
  table := rfl
  destroyed := ⟨nofun, nofun⟩
  tasks := rfl
  copies := ⟨List.forall_mem_nil _, fun _ hn => absurd rfl hn, List.forall_mem_nil _,
    List.forall_mem_nil _⟩

theorem tracked (hrun : exec DispatchingSlave.step (.new concurrent) labels = some d) :
    Tracked labels d :=
  exec_history (fun _ _ _ _ h hstep => h.step hstep) hrun (tracked_new concurrent)

/-- The copy that a call of `process_frame` was given is what was registered when a session before it
was opened. -/
theorem processing_copy (hrun : exec DispatchingSlave.step (.new concurrent) labels = some d)
    {p : Processing σ} (hp : p ∈ d.processings) :
    ∃ snapshot, p.snapshot = some snapshot ∧ snapshot.openedAt < p.startedAt ∧
      (∃ physical, labels[snapshot.openedAt]? = some (.slave (.opened physical))) ∧
      snapshot.customFcs = registered (labels.take snapshot.openedAt) := by
  obtain ⟨-, snapshot, hsnapshot, ⟨physical, hopened⟩, hcopied⟩ :=
    (tracked hrun).copies.processings p hp
  have hlt : snapshot.openedAt < p.startedAt := by
    have hlt := (List.getElem?_eq_some_iff.mp hopened).1
    rw [List.length_take] at hlt
    omega
  rw [List.getElem?_take_of_lt hlt] at hopened
  rw [List.take_take, Nat.min_eq_left (Nat.le_of_lt hlt)] at hcopied
  exact ⟨snapshot, hsnapshot, hlt, ⟨physical, hopened⟩, hcopied⟩

end Runs

/-- **Which frames are dispatched as the registrations say**: in every run, a frame with a custom code
whose handler is the one that was registered when the session was opened that serves it. -/
theorem customDispatch_follows_iff [DecidableEq κ] {concurrent : Bool}
    {labels : List (DispatchLabel κ σ)} {d : DispatchingSlave κ σ}
    (hrun : exec DispatchingSlave.step (.new concurrent) labels = some d) :
    ∀ p ∈ d.processings, ¬ BuiltIn p.frame.adu.fc →
      ∃ snapshot, p.snapshot = some snapshot ∧ snapshot.openedAt < p.startedAt ∧
        (∃ physical, labels[snapshot.openedAt]? = some (.slave (.opened physical))) ∧
        (Follows (registered (labels.take p.startedAt)) snapshot.customFcs p.frame.adu ↔
          handlerOf (registered (labels.take snapshot.openedAt)) p.frame.adu.fc =
            handlerOf (registered (labels.take p.startedAt)) p.frame.adu.fc) := by
  intro p hp hfc
  obtain ⟨snapshot, hsnapshot, hlt, hopened, hcopied⟩ := processing_copy hrun hp
  refine ⟨snapshot, hsnapshot, hlt, hopened, ?_⟩
  rw [follows_iff hfc, hcopied]

/-- Code 0x41, echoed. -/
def echoCode : CustomFunctionCode Unit where
  fc := 0x41
  predictRequestLength _ := .needMore
  predictResponseLength _ := .needMore
  handle := some fun data _ s => (.ok data, s)

/-- A frame with code 0x41. -/
def echoFrame : FramedDataUnit := ⟨⟨none, 0x01, 0x41, []⟩, []⟩

/-- The frame is published, received and taken from its queue. -/
def echoSteps : List (DispatchLabel Unit Unit) :=
  [.slave (.publish () echoFrame), .slave (.receive 0), .slave (.drain 0)]

theorem registered_add (labels : List (DispatchLabel κ σ)) (cfc : CustomFunctionCode σ) :
    registered (labels ++ [.addCustomFunctionCode cfc]) cfc.fc = some cfc := by
  rw [registered, registry_snoc]
  exact Function.update_self ..

/-- The code is registered before the slave is opened. -/
theorem customDispatch_follows_early : ∃ (d : DispatchingSlave Unit Unit) (p : Processing Unit)
    (snapshot : Snapshot Unit),
    exec DispatchingSlave.step (.new false)
        (.addCustomFunctionCode echoCode :: .slave (.opened (.ok ())) :: echoSteps) = some d ∧
      p ∈ d.processings ∧ p.snapshot = some snapshot ∧
      Follows (registered ([.addCustomFunctionCode echoCode, .slave (.opened (.ok ())),
        .slave (.publish () echoFrame), .slave (.receive 0)] : List (DispatchLabel Unit Unit)))
        snapshot.customFcs p.frame.adu := by
  obtain ⟨d, copy, hrun, hp⟩ : ∃ (d : DispatchingSlave Unit Unit) (copy : CustomFcs Unit),
      exec DispatchingSlave.step (.new false)
          (.addCustomFunctionCode echoCode :: .slave (.opened (.ok ())) :: echoSteps) = some d ∧
        ⟨echoFrame, some ⟨copy, 1⟩, 4⟩ ∈ d.processings :=
    ⟨_, _, rfl, List.mem_singleton.mpr rfl⟩
  obtain ⟨snapshot, hsnapshot, -, -, hfollows⟩ :=
    customDispatch_follows_iff hrun _ hp (show ¬ BuiltIn echoFrame.adu.fc by decide)
  cases hsnapshot
  exact ⟨d, _, _, hrun, hp, rfl, hfollows.mpr rfl⟩

/-- The code is registered after the slave is opened: the frame is answered with the exception. -/
theorem lateRegistration_refused : ∃ (d : DispatchingSlave Unit Unit) (p : Processing Unit)
    (snapshot : Snapshot Unit),
    exec DispatchingSlave.step (.new false)
        (.slave (.opened (.ok ())) :: .addCustomFunctionCode echoCode :: echoSteps) = some d ∧
      p ∈ d.processings ∧ p.snapshot = some snapshot ∧ ¬ BuiltIn p.frame.adu.fc ∧
      ¬ Follows (registered ([.slave (.opened (.ok ())), .addCustomFunctionCode echoCode,
        .slave (.publish () echoFrame), .slave (.receive 0)] : List (DispatchLabel Unit Unit)))
        snapshot.customFcs p.frame.adu := by
  refine ⟨_, ⟨echoFrame, some ⟨fun _ => none, 0⟩, 4⟩, ⟨fun _ => none, 0⟩, rfl,
    List.mem_singleton.mpr rfl, rfl, by decide, ?_⟩
  rintro ⟨hchosen, -⟩
  have hregistered : registered ([.slave (.opened (.ok ())), .addCustomFunctionCode echoCode,
      .slave (.publish () echoFrame), .slave (.receive 0)] : List (DispatchLabel Unit Unit)) 0x41 =
        some echoCode :=
    registered_add [.slave (.opened (.ok ()))] echoCode
  have hcode : echoFrame.adu.fc = 0x41 := rfl
  rw [handlerOf, handlerOf, hcode, hregistered] at hchosen
  cases hchosen

end RsModbus.Slave
