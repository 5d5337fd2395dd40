import RsModbus.Laws.MasterLifecycle
import RsModbus.Slave.Lifecycle

/-!
# What a failed `open` leaves behind

Slave and master store into their fields, and the slave spawns its tasks, before the physical layer is
asked to open.

* `failed_open_unchanged_iff`: a slave is never as before; a master is when it was destroyed, or already
  had the level and the next transaction id that `open` stores.
* `failed_open_reuses`: a second `open`, while a request is in flight, makes the next request use the id
  that is outstanding, and takes the waiter of the first.
-/

namespace RsModbus

open Library Master

/-- **A failed `open` that changes nothing.** Every `open` of a slave leaves one more framing task
behind, and with it the tasks that receive the closes. -/
theorem failed_open_unchanged_iff {κ φ ρ : Type} [DecidableEq κ] (e : ModbusError) :
    (∀ s : Slave.ModbusSlave κ φ, Slave.ModbusSlave.step s (.opened (.error e)) ≠ some s) ∧
      ∀ m : Lifecycle.ModbusMaster κ ρ, m.step (.opened (.error e)) = some m ↔
        m.cleanLevel = 2 ∨ m.cleanLevel = 0 ∧ m.nextTid = 1 := by
  constructor
  · intro s h
    have hinboxes : (s.inboxes ++ [[]]).length = s.inboxes.length :=
      congrArg (fun s => s.inboxes.length) (Option.some.inj h)
    rw [List.length_append, List.length_singleton] at hinboxes
    omega
  · intro m
    have hstep : m.step (.opened (.error e)) = some (m.opened (.error e)).1 := rfl
    rw [hstep, Option.some_inj, Lifecycle.ModbusMaster.opened]
    by_cases hlevel : m.cleanLevel = 2
    · rw [if_pos hlevel]
      exact iff_of_true rfl (.inl hlevel)
    · rw [if_neg hlevel]
      constructor
      · intro h
        have hzero : (0 : Nat) = m.cleanLevel := congrArg (fun m => m.cleanLevel) h
        have htid : (1 : UInt16) = m.nextTid := congrArg (fun m => m.nextTid) h
        exact .inr ⟨hzero.symm, htid.symm⟩
      · rintro (h | ⟨hzero, htid⟩)
        · exact absurd h hlevel
        · obtain ⟨protocol, concurrent, cleanLevel, nextTid, queueLock, session, calls, receivers,
            writes⟩ := m
          cases hzero
          cases htid
          rfl

/-- A slave whose port cannot be opened says that it is open. A concurrent master is opened again while
its first request is in flight: the second request takes the id and the waiter of the first. -/
theorem failed_open_reuses :
    (∃ s : Slave.ModbusSlave Nat Unit,
      Slave.ModbusSlave.step { concurrent := false } (.opened (.error .portAlreadyOpen)) = some s ∧
        s.isOpen = true ∧ s.inboxes.length = 1) ∧
    ∃ m₁ m₂ m₃ : Lifecycle.ModbusMaster Nat Unit,
      exec Lifecycle.ModbusMaster.step (.new .tcp true)
          [.opened (.ok ()), .issue 0 Lifecycle.readOne, .written 0 (.ok ())] = some m₁ ∧
        m₁.step (.opened (.error .portAlreadyOpen)) = some m₂ ∧
        m₁.nextTid = 2 ∧ m₂.nextTid = 1 ∧
        m₂.step (.issue 1 Lifecycle.readOne) = some m₃ ∧
        m₁.session.map (fun e => (e.1, e.2.sender)) = [(.tid 1, 0)] ∧
        m₃.session.map (fun e => (e.1, e.2.sender)) = [(.tid 1, 1)] ∧ m₃.receivers 0 = .closed :=
  ⟨⟨_, rfl, rfl, rfl⟩, _, _, _, rfl, rfl, rfl, rfl, rfl, rfl, rfl, rfl⟩

end RsModbus
