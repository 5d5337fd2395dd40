import RsModbus.Laws.MasterLifecycle

/-!
# What `close` does to the calls before it

* `close_cancels`: when no `open` comes between a close and the calls it left in the queue, and the close
  finds neither a response that its call has not picked up nor a broadcast in its write, every call that
  was issued before the close and had not completed can only return an error, does so when its turn
  comes, and writes nothing from the close on.
* `reopen_revives`: a call that waits for the queue lock over a close and an `open` writes its request.
-/

namespace RsModbus.Master.Lifecycle

open Library
open Lifecycle.ModbusMaster

variable {κ ρ : Type} {m t : ModbusMaster κ ρ} {c : Nat}

/-! ## Rejected calls -/

/-- A receiver that can only give its call an error. -/
def Oneshot.Rejected (receiver : Oneshot κ ρ) : Prop :=
  receiver = .closed ∨ ∃ e, receiver = .sent (.error e)

/-- A call that can only return an error, at the level and with the receiver given. -/
def Call.Doomed (level : Nat) (receiver : Oneshot κ ρ) (call : Call κ ρ) : Prop :=
  match call.phase with
  | .queued => 1 ≤ level
  | .writing _ => call.outgoing.request.unit ≠ 0 ∧ receiver.Rejected
  | .awaiting _ => receiver.Rejected
  | .returned outcome => ∃ e, outcome = .error e
  | .dropped => True

/-- Call `c` was issued and can only return an error. -/
def Doomed (m : ModbusMaster κ ρ) (c : Nat) : Prop :=
  ∃ call, m.calls c = some call ∧ call.Doomed m.cleanLevel (m.receivers c)

/-- The data units call `c` has handed to `physical.write`. -/
def ModbusMaster.writesOf (m : ModbusMaster κ ρ) (c : Nat) : List (Nat × ApplicationDataUnit) :=
  m.writes.filter (·.1 = c)

/-- `open` comes when no call that a close has left in the queue is still there; `close` comes when no
call has a response it has not picked up, and no broadcast is in its write. -/
def Cancels (m : ModbusMaster κ ρ) : Label κ ρ → Prop
  | .opened _ => m.cleanLevel = 1 → ∀ c outgoing, m.calls c ≠ some ⟨outgoing, .queued⟩
  | .closed => ∀ c call, m.calls c = some call → call.phase.Live →
    (∀ frame, m.receivers c ≠ .sent (.ok frame)) ∧
      (call.outgoing.request.unit = 0 → ∀ key, call.phase ≠ .writing key)
  | _ => True

theorem Oneshot.Rejected.ne_empty {receiver : Oneshot κ ρ} (h : receiver.Rejected) :
    receiver ≠ .empty := by
  rcases h with rfl | ⟨e, rfl⟩ <;> nofun

/-- A receiver without a response has an error once it has anything. -/
theorem rejected_of_ne {receiver : Oneshot κ ρ} (hempty : receiver ≠ .empty)
    (hok : ∀ frame, receiver ≠ .sent (.ok frame)) : receiver.Rejected := by
  cases receiver with
  | empty => exact absurd rfl hempty
  | closed => exact .inl rfl
  | sent result =>
    cases result with
    | error e => exact .inr ⟨e, rfl⟩
    | ok frame => exact absurd rfl (hok frame)

/-- A step that leaves a call where it is. -/
theorem Call.Doomed.mono {level level' : Nat} {receiver receiver' : Oneshot κ ρ} {call : Call κ ρ}
    (h : call.Doomed level receiver) (hlevel : 1 ≤ level → 1 ≤ level')
    (hreceiver : receiver.Rejected → receiver'.Rejected) : call.Doomed level' receiver' := by
  obtain ⟨outgoing, phase⟩ := call
  cases phase with
  | queued => exact hlevel h
  | writing key => exact ⟨h.1, hreceiver h.2⟩
  | awaiting key => exact hreceiver h
  | returned outcome => exact h
  | dropped => trivial

theorem Doomed.of_same (h : Doomed m c) (hcalls : t.calls c = m.calls c)
    (hlevel : 1 ≤ m.cleanLevel → 1 ≤ t.cleanLevel)
    (hreceiver : (m.receivers c).Rejected → (t.receivers c).Rejected) : Doomed t c := by
  obtain ⟨call, hcall, hdoomed⟩ := h
  exact ⟨call, hcalls.trans hcall, hdoomed.mono hlevel hreceiver⟩

/-- A call that moves to `phase`, which dooms it. -/
theorem Doomed.of_set {outgoing : Outgoing} {phase : Phase κ ρ}
    (hcalls : t.calls = Function.update m.calls c (some ⟨outgoing, phase⟩))
    (h : Call.Doomed t.cleanLevel (t.receivers c) ⟨outgoing, phase⟩) : Doomed t c :=
  ⟨_, (congrFun hcalls c).trans (Function.update_self ..), h⟩

theorem Doomed.not_fresh (h : Doomed m c) (hfresh : m.calls c = none) : False := by
  obtain ⟨call, hcall, -⟩ := h
  cases hfresh.symm.trans hcall

theorem Doomed.at (h : Doomed m c) {call : Call κ ρ} (hcall : m.calls c = some call) :
    call.Doomed m.cleanLevel (m.receivers c) := by
  obtain ⟨call', hcall', hdoomed⟩ := h
  cases hcall.symm.trans hcall'
  exact hdoomed

theorem rejected_stop (key : WaiterKey) (h : (m.receivers c).Rejected) :
    ((m.stop key).receivers c).Rejected := by
  rcases receivers_stop m key c with ⟨-, hclosed⟩ | ⟨-, hsame⟩
  · exact .inl hclosed
  · exact hsame.symm ▸ h

/-- A step of another call: it sets its own phase, and may replace or stop waiters. -/
theorem Doomed.of_other (h : Doomed m c) {c' : Nat} {outgoing : Outgoing} {phase : Phase κ ρ}
    (hne : c ≠ c') (hcalls : t.calls = Function.update m.calls c' (some ⟨outgoing, phase⟩))
    (hlevel : t.cleanLevel = m.cleanLevel)
    (hreceivers : t.receivers = m.receivers ∨ ∃ key, t.receivers = (m.stop key).receivers) :
    Doomed t c := by
  refine h.of_same ((congrFun hcalls c).trans (Function.update_of_ne hne ..)) (hlevel ▸ id) ?_
  intro hrejected
  rcases hreceivers with hsame | ⟨key, hstop⟩
  · exact hsame.symm ▸ hrejected
  · exact hstop.symm ▸ rejected_stop key hrejected

theorem writesOf_arm {c' : Nat} {outgoing : Outgoing} {key : WaiterKey} {checks : List PreCheck}
    {nextTid : UInt16} {adu : ApplicationDataUnit} (hne : c ≠ c') :
    (m.arm c' outgoing key checks nextTid adu).writesOf c = m.writesOf c := by
  have hwrites : (m.arm c' outgoing key checks nextTid adu).writes = m.writes ++ [(c', adu)] := rfl
  simp [writesOf, hwrites, Ne.symm hne]

/-- A frame gives nothing to a call that was rejected. -/
theorem Doomed.handleFrame (w : Waiters m) (h : Doomed m c) (frame : Framing κ ρ) :
    Doomed (m.handleFrame frame) c := by
  unfold ModbusMaster.handleFrame
  cases hroute : m.session.route frame with
  | none => exact h
  | some sent =>
    obtain ⟨i, result⟩ := sent
    by_cases hi : c = i
    · obtain ⟨e, he, -, hsender⟩ := route_entry hroute
      obtain ⟨call, hcall, hphase⟩ := w.entry e he
      rw [hsender, ← hi] at hcall hphase
      refine ⟨call, hcall, ?_⟩
      have hdoomed := h.at hcall
      obtain ⟨outgoing, phase⟩ := call
      rcases hphase with ⟨hwaits, hempty⟩ | rfl
      · rcases hwaits with rfl | rfl
        · exact absurd hempty hdoomed.2.ne_empty
        · exact absurd hempty (Oneshot.Rejected.ne_empty hdoomed)
      · trivial
    · refine h.of_same rfl id ?_
      intro hrejected
      exact (receivers_fill_of_not_mem fun hmem => hi (List.mem_singleton.mp hmem)).symm ▸ hrejected

theorem Doomed.stopAll (h : Doomed m c) (e : ModbusError) {level : Nat}
    (hlevel : 1 ≤ m.cleanLevel → 1 ≤ level) : Doomed { m.stopAll e with cleanLevel := level } c := by
  refine h.of_same rfl hlevel ?_
  intro hrejected
  show (if c ∈ m.session.senders then Oneshot.sent (.error e) else m.receivers c).Rejected
  split
  · exact .inr ⟨e, rfl⟩
  · exact hrejected

/-- What one step keeps of a call that can only return an error. -/
theorem Doomed.step (w : Waiters m) (h : Doomed m c) {label : Label κ ρ} (hcancels : Cancels m label)
    (hmoves : Moves m label t) : Doomed t c ∧ t.writesOf c = m.writesOf c := by
  cases hmoves with
  | @rejected c' outgoing hfresh hlevel =>
    have hne : c ≠ c' := fun heq => h.not_fresh (heq ▸ hfresh)
    exact ⟨h.of_other hne rfl rfl (.inl rfl), rfl⟩
  | @queued c' outgoing hfresh hlevel hfifo =>
    have hne : c ≠ c' := fun heq => h.not_fresh (heq ▸ hfresh)
    exact ⟨h.of_other hne rfl rfl (.inl rfl), rfl⟩
  | @dispatched c' outgoing key checks nextTid adu hfresh hlevel hconcurrent =>
    have hne : c ≠ c' := fun heq => h.not_fresh (heq ▸ hfresh)
    exact ⟨h.of_other hne arm_calls arm_cleanLevel (.inr ⟨key, arm_receivers⟩), writesOf_arm hne⟩
  | @refused c' outgoing hcall howner hlevel =>
    by_cases hc : c = c'
    · subst hc
      exact ⟨.of_set rfl ⟨_, rfl⟩, rfl⟩
    · exact ⟨h.of_other hc rfl rfl (.inl rfl), rfl⟩
  | @resumed c' outgoing key checks nextTid adu hcall howner hlevel =>
    have hne : c ≠ c' := by
      rintro rfl
      have hclosed : 1 ≤ m.cleanLevel := h.at hcall
      omega
    exact ⟨h.of_other hne arm_calls arm_cleanLevel (.inr ⟨key, arm_receivers⟩), writesOf_arm hne⟩
  | @failed c' outgoing key e hcall =>
    by_cases hc : c = c'
    · subst hc
      exact ⟨.of_set rfl ⟨e, rfl⟩, rfl⟩
    · exact ⟨h.of_other hc rfl rfl (.inr ⟨key, rfl⟩), rfl⟩
  | @broadcast c' outgoing key hcall hunit =>
    have hne : c ≠ c' := by
      rintro rfl
      exact (h.at hcall).1 hunit
    exact ⟨h.of_other hne rfl rfl (.inr ⟨key, rfl⟩), rfl⟩
  | @awaits c' outgoing key hcall hunit =>
    by_cases hc : c = c'
    · subst hc
      exact ⟨.of_set rfl (h.at hcall).2, rfl⟩
    · exact ⟨h.of_other hc rfl rfl (.inl rfl), rfl⟩
  | @answered c' outgoing key result hcall hreceiver =>
    by_cases hc : c = c'
    · subst hc
      have hrejected : (m.receivers c).Rejected := h.at hcall
      rw [hreceiver] at hrejected
      rcases hrejected with hclosed | ⟨e, he⟩
      · cases hclosed
      · cases he
        exact ⟨.of_set rfl ⟨e, rfl⟩, rfl⟩
    · exact ⟨h.of_other hc rfl rfl (.inl rfl), rfl⟩
  | @cleared c' outgoing key hcall hreceiver =>
    by_cases hc : c = c'
    · subst hc
      exact ⟨.of_set rfl ⟨_, rfl⟩, rfl⟩
    · exact ⟨h.of_other hc rfl rfl (.inl rfl), rfl⟩
  | @expired c' outgoing key hcall hreceiver =>
    by_cases hc : c = c'
    · subst hc
      exact ⟨.of_set rfl ⟨_, rfl⟩, rfl⟩
    · exact ⟨h.of_other hc rfl rfl (.inr ⟨key, rfl⟩), rfl⟩
  | @abandoned c' outgoing phase hcall hlive =>
    by_cases hc : c = c'
    · subst hc
      exact ⟨.of_set rfl trivial, rfl⟩
    · exact ⟨h.of_other hc rfl rfl (.inl rfl), rfl⟩
  | @routed frame =>
    refine ⟨h.handleFrame w frame, ?_⟩
    unfold ModbusMaster.handleFrame
    cases m.session.route frame <;> rfl
  | errored => exact ⟨h.stopAll _ id, rfl⟩
  | reopened hlevel =>
    refine ⟨?_, rfl⟩
    obtain ⟨⟨outgoing, phase⟩, hcall, hdoomed⟩ := h
    refine ⟨_, hcall, ?_⟩
    cases phase with
    | queued =>
      have hclosed : 1 ≤ m.cleanLevel := hdoomed
      have hmost := w.level
      exact absurd hcall (hcancels (by omega) c outgoing)
    | writing key => exact hdoomed
    | awaiting key => exact hdoomed
    | returned outcome => exact hdoomed
    | dropped => trivial
  | cleaned hlevel hmost hlabel => exact ⟨h.stopAll _ fun _ => hlevel, rfl⟩
  | idle hlevel hlabel => exact ⟨h, rfl⟩

/-- A close dooms every call that has not completed. -/
theorem doomed_of_close (w : Waiters m) (hcancels : Cancels m .closed) {call : Call κ ρ}
    (hcall : m.calls c = some call) (hlive : call.phase.Live) (hstep : m.step .closed = some t) :
    Doomed t c ∧ t.writesOf c = m.writesOf c := by
  obtain ⟨hok, hbroadcast⟩ := hcancels c call hcall hlive
  -- A waiting call finds an error once its channel is filled or its waiter is gone.
  have harmed : ∀ key, call.phase.Waits key → ¬ c ∈ m.session.senders → (m.receivers c).Rejected := by
    intro key hwaits hsender
    refine rejected_of_ne ?_ hok
    intro hempty
    obtain ⟨e, he, -, hc⟩ := w.armed c call key hcall hwaits hempty
    exact hsender (mem_senders.mpr ⟨e, he, hc⟩)
  cases moves_of_step hstep with
  | @cleaned _ e level hlevel hmost hlabel =>
    refine ⟨⟨call, hcall, ?_⟩, rfl⟩
    have hrejected : ∀ key, call.phase.Waits key → Oneshot.Rejected
        (if c ∈ m.session.senders then Oneshot.sent (.error e) else m.receivers c) := by
      intro key hwaits
      split
      · exact .inr ⟨e, rfl⟩
      next hsender => exact harmed key hwaits hsender
    obtain ⟨outgoing, phase⟩ := call
    cases phase with
    | queued => exact hlevel
    | writing key => exact ⟨fun hunit => hbroadcast hunit key rfl, hrejected key (.inl rfl)⟩
    | awaiting key => exact hrejected key (.inr rfl)
    | returned outcome => exact hlive.elim
    | dropped => trivial
  | idle hlevel hlabel =>
    refine ⟨⟨call, hcall, ?_⟩, rfl⟩
    have hnone : ¬ c ∈ m.session.senders := by
      rw [w.quiet hlevel]
      exact List.not_mem_nil
    obtain ⟨outgoing, phase⟩ := call
    cases phase with
    | queued => exact hlevel
    | writing key => exact ⟨fun hunit => hbroadcast hunit key rfl, harmed key (.inl rfl) hnone⟩
    | awaiting key => exact harmed key (.inr rfl) hnone
    | returned outcome => exact hlive.elim
    | dropped => trivial

/-! ## The queue -/

/-- The members of a FIFO master's queue lock are the calls that have not ended, and whoever has passed
the queue owns it. A concurrent master queues nobody. -/
structure Queue (m : ModbusMaster κ ρ) : Prop where
  wellFormed : m.queueLock.WellFormed
  unqueued : m.concurrent = true → ∀ c outgoing, m.calls c ≠ some ⟨outgoing, .queued⟩
  member : m.concurrent = false →
    ∀ c, c ∈ m.queueLock.members ↔ ∃ call, m.calls c = some call ∧ call.phase.Live
  owner : m.concurrent = false → ∀ c call key, m.calls c = some call → call.phase.Waits key →
    m.queueLock.owner = some c

theorem Phase.Waits.live {phase : Phase κ ρ} {key : WaiterKey} (h : phase.Waits key) : phase.Live := by
  rcases h with rfl | rfl <;> trivial

namespace Queue

theorem init (protocol : ApplicationProtocol) (concurrent : Bool) :
    Queue (.new protocol concurrent : ModbusMaster κ ρ) where
  wellFormed := FairMutex.wellFormed_free
  unqueued := fun _ _ _ => nofun
  member := fun _ _ => iff_of_false List.not_mem_nil fun h => nomatch h
  owner := nofun

/-- Call `c` moves and the lock stays. -/
theorem keep (q : Queue m) {outgoing : Outgoing} {phase : Phase κ ρ}
    (hcalls : t.calls = Function.update m.calls c (some ⟨outgoing, phase⟩))
    (hlock : t.queueLock = m.queueLock) (hconcurrent : t.concurrent = m.concurrent)
    (hqueued : phase ≠ .queued)
    (hlive : phase.Live ↔ ∃ call, m.calls c = some call ∧ call.phase.Live)
    (howner : m.concurrent = false → ∀ key, phase.Waits key → m.queueLock.owner = some c) :
    Queue t where
  wellFormed := hlock ▸ q.wellFormed
  unqueued := by
    intro hmode c' outgoing' hcall
    rw [hcalls] at hcall
    by_cases hc : c' = c
    · rw [hc, Function.update_self] at hcall
      cases hcall
      exact hqueued rfl
    · rw [Function.update_of_ne hc] at hcall
      exact q.unqueued (hconcurrent ▸ hmode) c' outgoing' hcall
  member := by
    intro hmode c'
    rw [hlock, q.member (hconcurrent ▸ hmode), hcalls]
    by_cases hc : c' = c
    · subst hc
      rw [Function.update_self, ← hlive]
      exact ⟨fun h => ⟨_, rfl, h⟩, fun ⟨call, hcall, h⟩ => by cases hcall; exact h⟩
    · rw [Function.update_of_ne hc]
  owner := by
    intro hmode c' call key hcall hwaits
    rw [hcalls] at hcall
    rw [hlock]
    by_cases hc : c' = c
    · subst hc
      rw [Function.update_self] at hcall
      cases hcall
      exact howner (hconcurrent ▸ hmode) key hwaits
    · rw [Function.update_of_ne hc] at hcall
      exact q.owner (hconcurrent ▸ hmode) c' call key hcall hwaits

/-- Call `c` ends and leaves the lock. -/
theorem finish (q : Queue m) (outgoing : Outgoing) {phase : Phase κ ρ} (hended : ¬ phase.Live) :
    Queue (m.finish c outgoing phase) where
  wellFormed := q.wellFormed.cancel c
  unqueued := by
    intro hmode c' outgoing' hcall
    have hcall : Function.update m.calls c _ c' = _ := hcall
    by_cases hc : c' = c
    · rw [hc, Function.update_self] at hcall
      cases hcall
      exact hended trivial
    · rw [Function.update_of_ne hc] at hcall
      exact q.unqueued hmode c' outgoing' hcall
  member := by
    intro hmode c'
    show c' ∈ (m.queueLock.cancel c).members ↔ ∃ call, Function.update m.calls c _ c' = some call ∧ _
    rw [FairMutex.mem_cancel q.wellFormed, q.member hmode]
    by_cases hc : c' = c
    · subst hc
      rw [Function.update_self]
      refine iff_of_false (fun h => h.2 rfl) ?_
      rintro ⟨call, hcall, hlive⟩
      cases hcall
      exact hended hlive
    · rw [Function.update_of_ne hc]
      exact and_iff_left hc
  owner := by
    intro hmode c' call key hcall hwaits
    have hcall : Function.update m.calls c _ c' = _ := hcall
    by_cases hc : c' = c
    · rw [hc, Function.update_self] at hcall
      cases hcall
      exact absurd hwaits.live hended
    · rw [Function.update_of_ne hc] at hcall
      exact FairMutex.owner_cancel (q.owner hmode c' call key hcall hwaits) hc

/-- A fresh call joins the queue. -/
theorem join (q : Queue m) {outgoing : Outgoing} (hfresh : m.calls c = none)
    (hfifo : m.concurrent = false) :
    Queue { m.setPhase c outgoing .queued with queueLock := m.queueLock.lock c } where
  wellFormed := by
    apply q.wellFormed.lock
    rw [q.member hfifo]
    rintro ⟨call, hcall, -⟩
    cases hfresh.symm.trans hcall
  unqueued := fun hmode => nomatch hfifo.symm.trans hmode
  member := by
    intro _ c'
    refine (FairMutex.mem_lock q.wellFormed).trans ?_
    rw [q.member hfifo]
    show _ ↔ ∃ call, Function.update m.calls c _ c' = some call ∧ _
    by_cases hc : c' = c
    · subst hc
      rw [Function.update_self]
      exact iff_of_true (.inr rfl) ⟨_, rfl, trivial⟩
    · rw [Function.update_of_ne hc]
      exact or_iff_left hc
  owner := by
    intro _ c' call key hcall hwaits
    have hcall : Function.update m.calls c _ c' = some call := hcall
    by_cases hc : c' = c
    · rw [hc, Function.update_self] at hcall
      cases hcall
      exact absurd rfl hwaits.ne_queued
    · rw [Function.update_of_ne hc] at hcall
      exact FairMutex.owner_lock (q.owner hfifo c' call key hcall hwaits)

/-- A step that leaves the calls and the lock alone. -/
theorem congr (q : Queue m) (hcalls : t.calls = m.calls) (hlock : t.queueLock = m.queueLock)
    (hconcurrent : t.concurrent = m.concurrent) : Queue t := by
  refine ⟨hlock ▸ q.wellFormed, ?_, ?_, ?_⟩
  · rw [hcalls, hconcurrent]
    exact q.unqueued
  · rw [hcalls, hconcurrent, hlock]
    exact q.member
  · rw [hcalls, hconcurrent, hlock]
    exact q.owner

theorem stop (q : Queue m) (key : WaiterKey) : Queue (m.stop key) := q.congr rfl rfl rfl

theorem step (q : Queue m) {label : Label κ ρ} (hmoves : Moves m label t) : Queue t := by
  have hended : ∀ outcome : Outcome κ ρ, ¬ (Phase.returned outcome).Live := fun _ h => h
  have hdropped : ¬ (Phase.dropped : Phase κ ρ).Live := fun h => h
  have hnone : ∀ c, m.calls c = none → ¬ ∃ call, m.calls c = some call ∧ call.phase.Live := by
    rintro c hfresh ⟨call, hcall, -⟩
    cases hfresh.symm.trans hcall
  cases hmoves with
  | rejected hfresh hlevel =>
    refine q.keep rfl rfl rfl nofun (iff_of_false (hended _) (hnone _ hfresh)) ?_
    intro _ key hwaits
    exact absurd hwaits.live (hended _)
  | queued hfresh hlevel hfifo => exact q.join hfresh hfifo
  | dispatched hfresh hlevel hconcurrent =>
    have hmode : ¬ m.concurrent = false := by
      rw [hconcurrent]
      exact Bool.noConfusion
    refine ⟨?_, ?_, ?_, ?_⟩
    · rw [arm_queueLock]
      exact q.wellFormed
    · intro _ c' outgoing' hcall
      rw [arm_calls, Function.update_apply] at hcall
      split at hcall
      · cases hcall
      · exact q.unqueued hconcurrent c' outgoing' hcall
    · rw [arm_concurrent]
      exact fun h => absurd h hmode
    · rw [arm_concurrent]
      exact fun h => absurd h hmode
  | refused hcall howner hlevel => exact q.finish _ (hended _)
  | resumed hcall howner hlevel =>
    exact q.keep arm_calls arm_queueLock arm_concurrent nofun (iff_of_true trivial ⟨_, hcall, trivial⟩) fun _ _ _ => howner
  | failed hcall => exact (q.stop _).finish _ (hended _)
  | broadcast hcall hunit => exact (q.stop _).finish _ (hended _)
  | awaits hcall hunit =>
    refine q.keep rfl rfl rfl nofun (iff_of_true trivial ⟨_, hcall, trivial⟩) ?_
    intro hmode _ _
    exact q.owner hmode _ _ _ hcall (.inl rfl)
  | answered hcall hreceiver => exact q.finish _ (hended _)
  | cleared hcall hreceiver => exact q.finish _ (hended _)
  | expired hcall hreceiver => exact (q.stop _).finish _ (hended _)
  | abandoned hcall hlive => exact q.finish _ hdropped
  | @routed frame =>
    unfold ModbusMaster.handleFrame
    cases m.session.route frame with
    | none => exact q
    | some sent => exact q.congr rfl rfl rfl
  | errored => exact q.congr rfl rfl rfl
  | reopened hlevel => exact q.congr rfl rfl rfl
  | cleaned hlevel hmost hlabel => exact q.congr rfl rfl rfl
  | idle hlevel hlabel => exact q

end Queue

/-! ## Calls return -/

/-- The steps of calls. -/
def Label.OfCall : Label κ ρ → Prop
  | .resume _ => True
  | .written _ _ => True
  | .resolve _ => True
  | _ => False

theorem Label.OfCall.cancels {label : Label κ ρ} (h : label.OfCall) (m : ModbusMaster κ ρ) :
    Cancels m label := by
  cases label <;> trivial

/-- A call that has its turn, or something in its receiver, returns within two steps. -/
theorem exists_return {call : Call κ ρ} (hcall : m.calls c = some call) (hlive : call.phase.Live)
    (hturn : call.phase = .queued → m.queueLock.owner = some c ∧ 1 ≤ m.cleanLevel)
    (hreceiver : ∀ key, call.phase.Waits key → m.receivers c ≠ .empty) :
    ∃ labels t outcome, exec ModbusMaster.step m labels = some t ∧ (∀ label ∈ labels, label.OfCall) ∧
      t.calls = Function.update m.calls c (some ⟨call.outgoing, .returned outcome⟩) ∧
      t.queueLock = m.queueLock.cancel c := by
  obtain ⟨outgoing, phase⟩ := call
  -- A call that awaits its response picks up what its receiver has.
  have hresolve : ∀ (s : ModbusMaster κ ρ) key, s.calls c = some ⟨outgoing, .awaiting key⟩ →
      s.receivers c ≠ .empty → ∃ outcome,
        s.step (.resolve c) = some (s.finish c outgoing (.returned outcome)) := by
    intro s key hs hne
    have hstep : s.step (.resolve c) = s.stepResolve c ⟨outgoing, .awaiting key⟩ := by
      rw [ModbusMaster.step, hs]
      rfl
    rw [hstep, ModbusMaster.stepResolve]
    cases hr : s.receivers c with
    | empty => exact absurd hr hne
    | sent result => exact ⟨_, rfl⟩
    | closed => exact ⟨_, rfl⟩
  cases phase with
  | queued =>
    obtain ⟨howner, hlevel⟩ := hturn rfl
    have hstep : m.step (.resume c) =
        some (m.finish c outgoing (.returned (.error masterClosed))) := by
      rw [ModbusMaster.step, hcall]
      simp only [Option.bind_some, howner, if_true, ModbusMaster.transmit, if_pos hlevel]
    refine ⟨[.resume c], m.finish c outgoing (.returned (.error masterClosed)), _, ?_, List.forall_mem_singleton.mpr trivial, rfl, rfl⟩
    rw [exec_cons, hstep]
    rfl
  | writing key =>
    by_cases hunit : outgoing.request.unit = 0
    · have hstep : m.step (.written c (.ok ())) =
          some ((m.stop key).finish c outgoing (.returned (.ok none))) := by
        rw [ModbusMaster.step, hcall]
        exact if_pos hunit
      refine ⟨[.written c (.ok ())], (m.stop key).finish c outgoing (.returned (.ok none)), _, ?_,
        List.forall_mem_singleton.mpr trivial, rfl, rfl⟩
      rw [exec_cons, hstep]
      rfl
    · have hstep : m.step (.written c (.ok ())) = some (m.setPhase c outgoing (.awaiting key)) := by
        rw [ModbusMaster.step, hcall]
        exact if_neg hunit
      obtain ⟨outcome, hresolved⟩ := hresolve (m.setPhase c outgoing (.awaiting key)) key
        (Function.update_self ..) (hreceiver key (.inl rfl))
      refine ⟨[.written c (.ok ()), .resolve c],
        (m.setPhase c outgoing (.awaiting key)).finish c outgoing (.returned outcome), outcome,
        ?_, ?_, ?_, ?_⟩
      · rw [exec_cons, hstep, Option.bind_some, exec_cons, hresolved]
        rfl
      · exact List.forall_mem_cons.mpr ⟨trivial, List.forall_mem_singleton.mpr trivial⟩
      · exact Function.update_idem ..
      · rfl
  | awaiting key =>
    obtain ⟨outcome, hresolved⟩ := hresolve m key hcall (hreceiver key (.inr rfl))
    refine ⟨[.resolve c], m.finish c outgoing (.returned outcome), outcome, ?_,
      List.forall_mem_singleton.mpr trivial, rfl, rfl⟩
    rw [exec_cons, hresolved]
    rfl
  | returned outcome => exact hlive.elim
  | dropped => exact hlive.elim

/-- What a run of steps keeps, of the master and of a call that can only return an error. -/
structure Closing (m : ModbusMaster κ ρ) (c : Nat) : Prop where
  waiters : Waiters m
  queue : Queue m
  doomed : Doomed m c

theorem Closing.run (h : Closing m c) {labels : List (Label κ ρ)}
    (run : exec ModbusMaster.step m labels = some t) (meets : Meets ModbusMaster.step Cancels m labels) :
    Closing t c ∧ t.writesOf c = m.writesOf c := by
  refine exec_invariant (P := fun t => Closing t c ∧ t.writesOf c = m.writesOf c) ?_ run meets ⟨h, rfl⟩
  intro s label u hs hlabel hstep
  have hmoves := moves_of_step hstep
  obtain ⟨hdoomed, hwrites⟩ := hs.1.doomed.step hs.1.waiters hlabel hmoves
  exact ⟨⟨hs.1.waiters.step hmoves, hs.1.queue.step hmoves, hdoomed⟩, hwrites.trans hs.2⟩

theorem Closing.run_of_call (h : Closing m c) {labels : List (Label κ ρ)}
    (run : exec ModbusMaster.step m labels = some t) (hcalls : ∀ label ∈ labels, label.OfCall) :
    Closing t c :=
  (h.run run (Meets.of_mem (fun label hmem s => (hcalls label hmem).cancels s) m)).1

/-- A call in the queue returns once all before it have: by induction on their number. -/
theorem Closing.queued_returns (h : Closing m c) {outgoing : Outgoing}
    (hcall : m.calls c = some ⟨outgoing, .queued⟩) :
    ∃ labels t outcome, exec ModbusMaster.step m labels = some t ∧ (∀ label ∈ labels, label.OfCall) ∧
      t.calls c = some ⟨outgoing, .returned outcome⟩ := by
  have hmode : m.concurrent = false := by
    by_contra hmode
    exact h.queue.unqueued (eq_true_of_ne_false hmode) c outgoing hcall
  induction hn : m.queueLock.members.length generalizing m with
  | zero =>
    have hmem := (h.queue.member hmode c).mpr ⟨_, hcall, trivial⟩
    rw [List.length_eq_zero_iff.mp hn] at hmem
    cases hmem
  | succ n ih =>
    have hmem := (h.queue.member hmode c).mpr ⟨_, hcall, trivial⟩
    obtain ⟨o, howner⟩ := FairMutex.exists_owner h.queue.wellFormed hmem
    obtain ⟨call, hocall, hlive⟩ := (h.queue.member hmode o).mp (FairMutex.mem_of_owner howner)
    have hlevel : 1 ≤ m.cleanLevel := h.doomed.at hcall
    have hreceiver : ∀ key, call.phase.Waits key → m.receivers o ≠ .empty := by
      intro key hwaits hempty
      obtain ⟨e, he, -⟩ := h.waiters.armed o call key hocall hwaits hempty
      rw [h.waiters.quiet hlevel] at he
      cases he
    obtain ⟨labels, s, outcome, hrun, hlabels, hcalls, hlock⟩ :=
      exists_return hocall hlive (fun _ => ⟨howner, hlevel⟩) hreceiver
    by_cases hc : c = o
    · subst hc
      cases hcall.symm.trans hocall
      exact ⟨labels, s, outcome, hrun, hlabels, (congrFun hcalls c).trans (Function.update_self ..)⟩
    · have hs := h.run_of_call hrun hlabels
      have hscall : s.calls c = some ⟨outgoing, .queued⟩ :=
        (congrFun hcalls c).trans ((Function.update_of_ne hc ..).trans hcall)
      have hsmode : s.concurrent = false := by
        by_contra hsmode
        exact hs.queue.unqueued (eq_true_of_ne_false hsmode) c outgoing hscall
      have hlength : s.queueLock.members.length = n := by
        have hcancel := FairMutex.length_cancel howner
        rw [hlock]
        omega
      obtain ⟨more, t, outcome', hmore, hmoreLabels, htcall⟩ := ih hs hscall hsmode hlength
      refine ⟨labels ++ more, t, outcome', ?_, ?_, htcall⟩
      · rw [exec_append, hrun]
        exact hmore
      · exact fun label hl => (List.mem_append.mp hl).elim (hlabels label) (hmoreLabels label)

/-- A call that can only return an error does so. -/
theorem Closing.returns (h : Closing m c) {call : Call κ ρ} (hcall : m.calls c = some call)
    (hlive : call.phase.Live) : ∃ labels t e, exec ModbusMaster.step m labels = some t ∧
      t.calls c = some ⟨call.outgoing, .returned (.error e)⟩ := by
  have hreturn : ∃ labels t outcome, exec ModbusMaster.step m labels = some t ∧
      (∀ label ∈ labels, label.OfCall) ∧ t.calls c = some ⟨call.outgoing, .returned outcome⟩ := by
    have hdoomed := h.doomed.at hcall
    by_cases hqueued : call.phase = .queued
    · obtain ⟨outgoing, phase⟩ := call
      cases hqueued
      exact h.queued_returns hcall
    · have hreceiver : ∀ key, call.phase.Waits key → m.receivers c ≠ .empty := by
        intro key hwaits
        obtain ⟨outgoing, phase⟩ := call
        rcases hwaits with rfl | rfl
        · exact hdoomed.2.ne_empty
        · exact Oneshot.Rejected.ne_empty hdoomed
      obtain ⟨labels, t, outcome, hrun, hlabels, hcalls, -⟩ :=
        exists_return hcall hlive (fun hphase => absurd hphase hqueued) hreceiver
      exact ⟨labels, t, outcome, hrun, hlabels, (congrFun hcalls c).trans (Function.update_self ..)⟩
  obtain ⟨labels, t, outcome, hrun, hlabels, htcall⟩ := hreturn
  obtain ⟨e, rfl⟩ := (h.run_of_call hrun hlabels).doomed.at htcall
  exact ⟨labels, t, e, hrun, htcall⟩

/-! ## Close -/

variable {protocol : ApplicationProtocol} {concurrent : Bool}

/-- **`close` cancels every call before it** that had not completed: whatever it returns after the close
is an error, it writes nothing more, and unless it is dropped it can always go on to return. A write is a
call of `physical.write`; what the physical layer does with it is not the master's. -/
theorem close_cancels {before after : List (Label κ ρ)} {m₁ m₂ m₃ : ModbusMaster κ ρ}
    (hbefore : exec ModbusMaster.step (.new protocol concurrent) before = some m₁)
    (hclose : m₁.step .closed = some m₂) (hafter : exec ModbusMaster.step m₂ after = some m₃)
    (meets : Meets ModbusMaster.step Cancels m₁ (.closed :: after)) {call : Call κ ρ}
    (hcall : m₁.calls c = some call) (hlive : call.phase.Live) :
    (∀ call' outcome, m₃.calls c = some call' → call'.phase = .returned outcome →
        ∃ e, outcome = .error e) ∧
      m₃.writesOf c = m₁.writesOf c ∧
      (∀ call', m₃.calls c = some call' → call'.phase.Live → ∃ more m₄ e,
        exec ModbusMaster.step m₃ more = some m₄ ∧
          m₄.calls c = some ⟨call'.outgoing, .returned (.error e)⟩) := by
  have hreached : Waiters m₁ ∧ Queue m₁ :=
    exec_invariant' (P := fun m => Waiters m ∧ Queue m) (fun _ _ _ hm hstep =>
      ⟨hm.1.step (moves_of_step hstep), hm.2.step (moves_of_step hstep)⟩) hbefore
      ⟨waiters_init protocol concurrent, .init protocol concurrent⟩
  obtain ⟨hdoomed, hwrites⟩ := doomed_of_close hreached.1 meets.1 hcall hlive hclose
  have hmoves := moves_of_step hclose
  have hclosing : Closing m₂ c := ⟨hreached.1.step hmoves, hreached.2.step hmoves, hdoomed⟩
  obtain ⟨hend, hsame⟩ := hclosing.run hafter (meets.2 m₂ hclose)
  refine ⟨?_, hsame.trans hwrites, fun call' hcall' hlive' => hend.returns hcall' hlive'⟩
  intro call' outcome hcall' hphase
  have hreturned := hend.doomed.at hcall'
  rwa [Call.Doomed, hphase] at hreturned

/-- A FIFO master with one call that awaits its response. -/
theorem close_cancels_awaiting : ∃ m₁ m₂ m₃ : ModbusMaster Nat Unit,
    exec ModbusMaster.step (.new .rtu false)
        [.issue 0 readOne, .resume 0, .written 0 (.ok ())] = some m₁ ∧
      m₁.step .closed = some m₂ ∧ exec ModbusMaster.step m₂ [.resolve 0] = some m₃ ∧
      m₃.writesOf 0 = m₁.writesOf 0 := by
  have hbefore : exec ModbusMaster.step (.new .rtu false : ModbusMaster Nat Unit)
    [.issue 0 readOne, .resume 0, .written 0 (.ok ())] = some _ := rfl
  have meets : ∀ m₁, exec ModbusMaster.step (.new .rtu false : ModbusMaster Nat Unit)
      [.issue 0 readOne, .resume 0, .written 0 (.ok ())] = some m₁ →
        Meets ModbusMaster.step Cancels m₁ [.closed, .resolve 0] := by
    intro m₁ h
    cases h
    refine .cons rfl ?_ (.cons rfl trivial trivial)
    intro c call hcall hlive
    refine ⟨fun frame => nofun, ?_⟩
    intro hunit
    by_cases hc : c = 0
    · subst hc
      cases hcall
      cases hunit
    · have hcall : Function.update (Function.update (Function.update (fun _ => none) 0 _) 0 _) 0 _ c =
        some call := hcall
      simp only [Function.update_of_ne hc] at hcall
      cases hcall
  have hcall : ∀ m₁, exec ModbusMaster.step (.new .rtu false : ModbusMaster Nat Unit)
      [.issue 0 readOne, .resume 0, .written 0 (.ok ())] = some m₁ →
        m₁.calls 0 = some ⟨readOne, .awaiting .fifo⟩ := by
    intro m₁ h
    cases h
    rfl
  exact ⟨_, _, _, hbefore, rfl, rfl,
    (close_cancels hbefore rfl rfl (meets _ hbefore) (hcall _ hbefore) trivial).2.1⟩

/-- **A call in the queue survives a close** that an `open` follows: it writes its request, and returns
the response. -/
theorem reopen_revives : ∃ m₁ m₂ m₃ : ModbusMaster Nat Unit,
    exec ModbusMaster.step (.new .rtu false)
        [.issue 0 readOne, .resume 0, .written 0 (.ok ()), .issue 1 readOne] = some m₁ ∧
      m₁.step .closed = some m₂ ∧
      exec ModbusMaster.step m₂ [.opened (.ok ()), .resolve 0, .resume 1, .written 1 (.ok ()),
        .frame (readReply none), .resolve 1] = some m₃ ∧
      m₁.calls 1 = some ⟨readOne, .queued⟩ ∧ m₁.writesOf 1 = [] ∧
      m₃.writesOf 1 = [(1, readOne.request)] ∧
      m₃.calls 1 = some ⟨readOne, .returned (.ok (some (readReply none)))⟩ :=
  ⟨_, _, _, rfl, rfl, rfl, rfl, rfl, rfl, rfl⟩

end RsModbus.Master.Lifecycle
