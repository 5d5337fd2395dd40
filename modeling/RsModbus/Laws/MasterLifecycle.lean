import RsModbus.Laws.MasterCalls
import RsModbus.Master.Lifecycle

/-!
# Laws of a master's life

* `Moves`: what a step can do, one constructor for each way out of an await point (`moves_of_step`).
* `Waiters`: which call each waiter of the session belongs to, in every run.
* `waiters_awaited`: when no call is dropped while its waiter is armed, every waiter is that of a call
  that still writes or awaits its response.
* `dropFuture_leaks`: a call that is dropped while it awaits its response leaves its waiter behind.
-/

namespace RsModbus.Master.Lifecycle

open Library
open Lifecycle.ModbusMaster

variable {κ ρ : Type} {m t : ModbusMaster κ ρ}

/-! ## What a step can do -/

/-- A call whose waiter is armed under `key`, or was. -/
def Phase.Waits (phase : Phase κ ρ) (key : WaiterKey) : Prop :=
  phase = .writing key ∨ phase = .awaiting key

/-- A call that has neither returned nor been dropped. -/
def Phase.Live : Phase κ ρ → Prop
  | .returned _ => False
  | .dropped => False
  | _ => True

/-- Call `c` arms its waiter under `key` and calls `physical.write`. -/
def ModbusMaster.arm (m : ModbusMaster κ ρ) (c : Nat) (outgoing : Outgoing) (key : WaiterKey)
    (checks : List PreCheck) (nextTid : UInt16) (adu : ApplicationDataUnit) : ModbusMaster κ ρ :=
  { (m.start key checks c).setPhase c outgoing (.writing key) with
    nextTid := nextTid, writes := m.writes ++ [(c, adu)] }

section Arm

variable {c : Nat} {outgoing : Outgoing} {key : WaiterKey} {checks : List PreCheck} {nextTid : UInt16}
  {adu : ApplicationDataUnit}

-- By `simp`: a `rfl` through the nested updates tries each of their fields at each of them.
@[simp] theorem arm_calls : (m.arm c outgoing key checks nextTid adu).calls =
    Function.update m.calls c (some ⟨outgoing, .writing key⟩) := by
  simp only [ModbusMaster.arm, setPhase, start, stop, fill]

@[simp] theorem arm_queueLock : (m.arm c outgoing key checks nextTid adu).queueLock = m.queueLock := by
  simp only [ModbusMaster.arm, setPhase, start, stop, fill]

@[simp] theorem arm_concurrent :
    (m.arm c outgoing key checks nextTid adu).concurrent = m.concurrent := by
  simp only [ModbusMaster.arm, setPhase, start, stop, fill]

@[simp] theorem arm_cleanLevel :
    (m.arm c outgoing key checks nextTid adu).cleanLevel = m.cleanLevel := by
  simp only [ModbusMaster.arm, setPhase, start, stop, fill]

@[simp] theorem arm_receivers :
    (m.arm c outgoing key checks nextTid adu).receivers = (m.stop key).receivers := by
  simp only [ModbusMaster.arm, setPhase, start, stop, fill]

end Arm

/-- The steps, one constructor for each way out of an await point. -/
inductive Moves (m : ModbusMaster κ ρ) : Label κ ρ → ModbusMaster κ ρ → Prop where
  | rejected {c : Nat} {outgoing : Outgoing} (hfresh : m.calls c = none) (hlevel : 1 ≤ m.cleanLevel) :
    Moves m (.issue c outgoing) (m.setPhase c outgoing (.returned (.error masterClosed)))
  | queued {c : Nat} {outgoing : Outgoing} (hfresh : m.calls c = none) (hlevel : m.cleanLevel = 0)
    (hfifo : m.concurrent = false) :
    Moves m (.issue c outgoing)
      { m.setPhase c outgoing .queued with queueLock := m.queueLock.lock c }
  | dispatched {c : Nat} {outgoing : Outgoing} {key : WaiterKey} {checks : List PreCheck}
    {nextTid : UInt16} {adu : ApplicationDataUnit} (hfresh : m.calls c = none)
    (hlevel : m.cleanLevel = 0) (hconcurrent : m.concurrent = true) :
    Moves m (.issue c outgoing) (m.arm c outgoing key checks nextTid adu)
  | refused {c : Nat} {outgoing : Outgoing} (hcall : m.calls c = some ⟨outgoing, .queued⟩)
    (howner : m.queueLock.owner = some c) (hlevel : 1 ≤ m.cleanLevel) :
    Moves m (.resume c) (m.finish c outgoing (.returned (.error masterClosed)))
  | resumed {c : Nat} {outgoing : Outgoing} {key : WaiterKey} {checks : List PreCheck}
    {nextTid : UInt16} {adu : ApplicationDataUnit} (hcall : m.calls c = some ⟨outgoing, .queued⟩)
    (howner : m.queueLock.owner = some c) (hlevel : m.cleanLevel = 0) :
    Moves m (.resume c) (m.arm c outgoing key checks nextTid adu)
  | failed {c : Nat} {outgoing : Outgoing} {key : WaiterKey} {e : ModbusError}
    (hcall : m.calls c = some ⟨outgoing, .writing key⟩) :
    Moves m (.written c (.error e)) ((m.stop key).finish c outgoing (.returned (.error e)))
  | broadcast {c : Nat} {outgoing : Outgoing} {key : WaiterKey}
    (hcall : m.calls c = some ⟨outgoing, .writing key⟩) (hunit : outgoing.request.unit = 0) :
    Moves m (.written c (.ok ())) ((m.stop key).finish c outgoing (.returned (.ok none)))
  | awaits {c : Nat} {outgoing : Outgoing} {key : WaiterKey}
    (hcall : m.calls c = some ⟨outgoing, .writing key⟩) (hunit : outgoing.request.unit ≠ 0) :
    Moves m (.written c (.ok ())) (m.setPhase c outgoing (.awaiting key))
  | answered {c : Nat} {outgoing : Outgoing} {key : WaiterKey}
    {result : Except ModbusError (Framing κ ρ)} (hcall : m.calls c = some ⟨outgoing, .awaiting key⟩)
    (hreceiver : m.receivers c = .sent result) :
    Moves m (.resolve c) (m.finish c outgoing (.returned (result.map some)))
  | cleared {c : Nat} {outgoing : Outgoing} {key : WaiterKey}
    (hcall : m.calls c = some ⟨outgoing, .awaiting key⟩) (hreceiver : m.receivers c = .closed) :
    Moves m (.resolve c) (m.finish c outgoing (.returned (.error sessionCleared)))
  | expired {c : Nat} {outgoing : Outgoing} {key : WaiterKey}
    (hcall : m.calls c = some ⟨outgoing, .awaiting key⟩) (hreceiver : m.receivers c = .empty) :
    Moves m (.timeout c) ((m.stop key).finish c outgoing (.returned (.error .timeout)))
  | abandoned {c : Nat} {outgoing : Outgoing} {phase : Phase κ ρ}
    (hcall : m.calls c = some ⟨outgoing, phase⟩) (hlive : phase.Live) :
    Moves m (.dropFuture c) (m.finish c outgoing .dropped)
  | routed {frame : Framing κ ρ} : Moves m (.frame frame) (m.handleFrame frame)
  | errored {e : ModbusError} : Moves m (.framingError e) (m.stopAll e)
  | reopened {physical : Except ModbusError Unit} (hlevel : m.cleanLevel ≠ 2) :
    Moves m (.opened physical) { m with cleanLevel := 0, nextTid := 1 }
  | cleaned {label : Label κ ρ} {e : ModbusError} {level : Nat} (hlevel : 1 ≤ level) (hmost : level ≤ 2)
    (hlabel : label = .closed ∨ label = .destroyed) :
    Moves m label { m.stopAll e with cleanLevel := level }
  | idle {label : Label κ ρ} (hlevel : 1 ≤ m.cleanLevel)
    (hlabel : label = .closed ∨ label = .destroyed ∨
      ∃ physical, label = .opened physical ∧ m.cleanLevel = 2) :
    Moves m label m

theorem transmit_eq (m : ModbusMaster κ ρ) (c : Nat) (outgoing : Outgoing)
    (hlevel : m.cleanLevel = 0) : ∃ key checks nextTid adu,
      m.transmit c outgoing = m.arm c outgoing key checks nextTid adu := by
  unfold ModbusMaster.transmit
  rw [if_neg (by omega)]
  split
  · exact ⟨_, _, _, _, rfl⟩
  · exact ⟨_, _, _, _, rfl⟩

theorem moves_issue {c : Nat} (hfresh : m.calls c = none) (outgoing : Outgoing) :
    Moves m (.issue c outgoing) (m.issue c outgoing) := by
  unfold ModbusMaster.issue
  by_cases hlevel : 1 ≤ m.cleanLevel
  · rw [if_pos hlevel]
    exact .rejected hfresh hlevel
  · rw [if_neg hlevel]
    have hzero : m.cleanLevel = 0 := by omega
    split
    next hconcurrent =>
      obtain ⟨key, checks, nextTid, adu, heq⟩ := transmit_eq m c outgoing hzero
      rw [heq]
      exact .dispatched hfresh hzero hconcurrent
    next hfifo => exact .queued hfresh hzero (Bool.not_eq_true _ ▸ hfifo)

theorem moves_resume {c : Nat} {outgoing : Outgoing} (hcall : m.calls c = some ⟨outgoing, .queued⟩)
    (howner : m.queueLock.owner = some c) : Moves m (.resume c) (m.transmit c outgoing) := by
  by_cases hlevel : 1 ≤ m.cleanLevel
  · rw [ModbusMaster.transmit, if_pos hlevel]
    exact .refused hcall howner hlevel
  · obtain ⟨key, checks, nextTid, adu, heq⟩ := transmit_eq m c outgoing (by omega)
    rw [heq]
    exact .resumed hcall howner (by omega)

/-- `close` and `destroy` clean, or find that there is nothing to clean. -/
theorem moves_clean {label : Label κ ρ} (hlabel : label = .closed ∨ label = .destroyed) {level : Nat}
    (hleast : 1 ≤ level) (hmost : level ≤ 2) : Moves m label (m.clean level) := by
  have hidle : 1 ≤ m.cleanLevel → Moves m label m := fun hlevel => .idle hlevel (hlabel.imp_right .inl)
  unfold ModbusMaster.clean
  by_cases hdestroyed : m.cleanLevel = 2
  · rw [if_pos hdestroyed]
    exact hidle (by omega)
  · rw [if_neg hdestroyed]
    by_cases hclosed : m.cleanLevel = 1 ∧ level = 1
    · rw [if_pos hclosed]
      exact hidle (by omega)
    · rw [if_neg hclosed]
      exact .cleaned hleast hmost hlabel

theorem moves_of_step {label : Label κ ρ} (h : m.step label = some t) : Moves m label t := by
  cases label with
  | issue c outgoing =>
    simp only [ModbusMaster.step] at h
    split at h
    · cases h
    next hfresh =>
      cases h
      exact moves_issue (Option.not_isSome_iff_eq_none.mp hfresh) outgoing
  | resume c =>
    obtain ⟨⟨outgoing, phase⟩, hcall, h⟩ := Option.bind_eq_some_iff.mp h
    cases phase with
    | queued =>
      dsimp only at h
      split at h
      next howner =>
        cases h
        exact moves_resume hcall howner
      · cases h
    | writing key => cases h
    | awaiting key => cases h
    | returned outcome => cases h
    | dropped => cases h
  | written c result =>
    obtain ⟨⟨outgoing, phase⟩, hcall, h⟩ := Option.bind_eq_some_iff.mp h
    cases phase with
    | writing key =>
      cases result with
      | error e =>
        cases h
        exact .failed hcall
      | ok u =>
        by_cases hunit : outgoing.request.unit = 0
        · cases (if_pos hunit).symm.trans h
          exact .broadcast hcall hunit
        · cases (if_neg hunit).symm.trans h
          exact .awaits hcall hunit
    | queued => cases h
    | awaiting key => cases h
    | returned outcome => cases h
    | dropped => cases h
  | resolve c =>
    obtain ⟨⟨outgoing, phase⟩, hcall, h⟩ := Option.bind_eq_some_iff.mp h
    cases phase with
    | awaiting key =>
      unfold ModbusMaster.stepResolve at h
      cases hreceiver : m.receivers c with
      | empty => rw [hreceiver] at h; cases h
      | sent result => rw [hreceiver] at h; cases h; exact .answered hcall hreceiver
      | closed => rw [hreceiver] at h; cases h; exact .cleared hcall hreceiver
    | queued => cases h
    | writing key => cases h
    | returned outcome => cases h
    | dropped => cases h
  | timeout c =>
    obtain ⟨⟨outgoing, phase⟩, hcall, h⟩ := Option.bind_eq_some_iff.mp h
    cases phase with
    | awaiting key =>
      unfold ModbusMaster.stepTimeout at h
      cases hreceiver : m.receivers c with
      | empty => rw [hreceiver] at h; cases h; exact .expired hcall hreceiver
      | sent result => rw [hreceiver] at h; cases h
      | closed => rw [hreceiver] at h; cases h
    | queued => cases h
    | writing key => cases h
    | returned outcome => cases h
    | dropped => cases h
  | dropFuture c =>
    obtain ⟨⟨outgoing, phase⟩, hcall, h⟩ := Option.bind_eq_some_iff.mp h
    cases phase with
    | queued => cases h; exact .abandoned hcall trivial
    | writing key => cases h; exact .abandoned hcall trivial
    | awaiting key => cases h; exact .abandoned hcall trivial
    | returned outcome => cases h
    | dropped => cases h
  | frame frame =>
    simp only [ModbusMaster.step] at h
    split at h
    · cases h
    · cases h
      exact .routed
  | framingError e =>
    simp only [ModbusMaster.step] at h
    split at h
    · cases h
    · cases h
      exact .errored
  | opened physical =>
    have ht : t = (m.opened physical).1 := (Option.some.inj h).symm
    rw [ht, ModbusMaster.opened]
    by_cases hlevel : m.cleanLevel = 2
    · rw [if_pos hlevel]
      exact .idle (by omega) (.inr (.inr ⟨physical, rfl, hlevel⟩))
    · rw [if_neg hlevel]
      exact .reopened hlevel
  | closed =>
    have ht : t = m.closed := (Option.some.inj h).symm
    rw [ht, ModbusMaster.closed]
    split
    next hlevel => exact .idle (by omega) (.inl rfl)
    · exact moves_clean (.inl rfl) (Nat.le_refl 1) (Nat.le_succ 1)
  | destroyed =>
    have ht : t = m.destroyed := (Option.some.inj h).symm
    rw [ht, ModbusMaster.destroyed]
    split
    next hlevel => exact .idle (by omega) (.inr (.inl rfl))
    · exact moves_clean (.inr rfl) (Nat.le_succ 1) (Nat.le_refl 2)

/-! ## Waiters -/

/-- The session and the calls agree. The waiter of a dropped call may be left behind. -/
structure Waiters (m : ModbusMaster κ ρ) : Prop where
  entry : ∀ e ∈ m.session, ∃ call, m.calls e.2.sender = some call ∧
    (call.phase.Waits e.1 ∧ m.receivers e.2.sender = .empty ∨ call.phase = .dropped)
  keys : ∀ e ∈ m.session, ∀ e' ∈ m.session, e.1 = e'.1 → e.2.sender = e'.2.sender
  armed : ∀ c call key, m.calls c = some call → call.phase.Waits key → m.receivers c = .empty →
    ∃ e ∈ m.session, e.1 = key ∧ e.2.sender = c
  unused : ∀ c, (∀ call, m.calls c = some call → call.phase = .queued) → m.receivers c = .empty
  quiet : 1 ≤ m.cleanLevel → m.session = []
  level : m.cleanLevel ≤ 2

theorem Phase.Waits.key_eq {phase : Phase κ ρ} {key key' : WaiterKey} (h : phase.Waits key)
    (h' : phase.Waits key') : key = key' := by
  rcases h with rfl | rfl <;> rcases h' with h' | h' <;> cases h' <;> rfl

theorem Phase.Waits.ne_dropped {phase : Phase κ ρ} {key : WaiterKey} (h : phase.Waits key) :
    phase ≠ .dropped := by
  rcases h with rfl | rfl <;> nofun

theorem Phase.Waits.ne_queued {phase : Phase κ ρ} {key : WaiterKey} (h : phase.Waits key) :
    phase ≠ .queued := by
  rcases h with rfl | rfl <;> nofun

theorem waiters_init (protocol : ApplicationProtocol) (concurrent : Bool) :
    Waiters (.new protocol concurrent : ModbusMaster κ ρ) where
  entry := nofun
  keys := nofun
  armed := nofun
  unused := fun _ _ => rfl
  quiet := nofun
  level := Nat.zero_le 2

section Session

variable {η : Type} {session : MasterSession η} {e : WaiterKey × WaitingState η} {key : WaiterKey}

theorem mem_stop : e ∈ session.stop key ↔ e ∈ session ∧ e.1 ≠ key := by
  rw [MasterSession.stop, List.mem_filter, decide_eq_true_iff]

/-- The waiter a frame is routed to. -/
theorem route_entry {κ ρ : Type} {frame : Framing κ ρ} {i : η}
    {result : Except ModbusError (Framing κ ρ)} (h : session.route frame = some (i, result)) :
    ∃ e ∈ session, e.1 = .of frame.adu ∧ e.2.sender = i := by
  obtain ⟨state, hget, hsent⟩ := Option.map_eq_some_iff.mp h
  obtain ⟨e, hfind, rfl⟩ := Option.map_eq_some_iff.mp hget
  refine ⟨e, List.mem_of_find?_eq_some hfind,
    by simpa only [decide_eq_true_eq] using List.find?_some hfind, ?_⟩
  cases hchecks : runPreChecks frame.adu e.2.preCheck <;> rw [hchecks] at hsent <;> cases hsent <;> rfl

theorem mem_senders {i : η} : i ∈ session.senders ↔ ∃ e ∈ session, e.2.sender = i := by
  rw [MasterSession.senders, List.mem_map]

end Session

namespace ModbusMaster

variable {c : Nat} {key : WaiterKey}

theorem receivers_fill_of_mem {senders : List Nat} {value : Oneshot κ ρ} (h : c ∈ senders) :
    (m.fill senders value).receivers c = value := if_pos h

theorem receivers_fill_of_not_mem {senders : List Nat} {value : Oneshot κ ρ} (h : c ∉ senders) :
    (m.fill senders value).receivers c = m.receivers c := if_neg h

/-- The receiver of a call after `stop`: closed, or as it was. -/
theorem receivers_stop (m : ModbusMaster κ ρ) (key : WaiterKey) (c : Nat) :
    (∃ e ∈ m.session, e.1 = key ∧ e.2.sender = c) ∧ (m.stop key).receivers c = .closed ∨
      (¬ ∃ e ∈ m.session, e.1 = key ∧ e.2.sender = c) ∧ (m.stop key).receivers c = m.receivers c := by
  have hsenders : c ∈ MasterSession.senders (m.session.filter (·.1 = key)) ↔
      ∃ e ∈ m.session, e.1 = key ∧ e.2.sender = c := by
    simp only [mem_senders, List.mem_filter, decide_eq_true_iff, and_assoc]
  by_cases h : c ∈ MasterSession.senders (m.session.filter (·.1 = key))
  · exact .inl ⟨hsenders.mp h, receivers_fill_of_mem h⟩
  · exact .inr ⟨fun hex => h (hsenders.mpr hex), receivers_fill_of_not_mem h⟩

end ModbusMaster

namespace Waiters

variable {c : Nat} {key : WaiterKey}

/-- Some waiters are removed and their channels filled. -/
theorem retire (w : Waiters m) (value : Oneshot κ ρ) (hvalue : value ≠ .empty)
    (hcalls : t.calls = m.calls) (hquiet : 1 ≤ t.cleanLevel → t.session = [])
    (hlevel : t.cleanLevel ≤ 2)
    (hsession : ∀ e, e ∈ t.session → e ∈ m.session)
    (hreceivers : ∀ c, (∃ e ∈ m.session, e ∉ t.session ∧ e.2.sender = c) ∧ t.receivers c = value ∨
      (∀ e ∈ m.session, e.2.sender = c → e ∈ t.session) ∧ t.receivers c = m.receivers c)
    (hkeys : ∀ e ∈ m.session, e ∉ t.session → ∀ e' ∈ t.session, e.1 ≠ e'.1) : Waiters t where
  entry := by
    intro e he
    obtain ⟨call, hcall, hphase⟩ := w.entry e (hsession e he)
    refine ⟨call, hcalls ▸ hcall, ?_⟩
    rcases hphase with ⟨hwaits, hempty⟩ | hdropped
    · rcases hreceivers e.2.sender with ⟨⟨e', he', hgone, hsender⟩, -⟩ | ⟨-, hsame⟩
      · obtain ⟨call', hcall', hphase'⟩ := w.entry e' he'
        rw [hsender, hcall] at hcall'
        cases hcall'
        rcases hphase' with ⟨hwaits', -⟩ | hdropped
        · exact absurd (hwaits'.key_eq hwaits) (hkeys e' he' hgone e he)
        · exact absurd hdropped hwaits.ne_dropped
      · exact .inl ⟨hwaits, hsame.trans hempty⟩
    · exact .inr hdropped
  keys := fun e he e' he' => w.keys e (hsession e he) e' (hsession e' he')
  armed := by
    intro c call key hcall hwaits hempty
    rcases hreceivers c with ⟨-, hfilled⟩ | ⟨hkept, hsame⟩
    · exact absurd (hfilled.symm.trans hempty) hvalue
    · obtain ⟨e, he, hkey, hsender⟩ := w.armed c call key (hcalls ▸ hcall) hwaits (hsame ▸ hempty)
      exact ⟨e, hkept e he hsender, hkey, hsender⟩
  unused := by
    intro c hqueued
    rw [hcalls] at hqueued
    rcases hreceivers c with ⟨⟨e, he, -, hsender⟩, -⟩ | ⟨-, hsame⟩
    · obtain ⟨call, hcall, hphase⟩ := w.entry e he
      rw [hsender] at hcall
      have hphase' := hqueued call hcall
      rcases hphase with ⟨hwaits, -⟩ | hdropped
      · exact absurd hphase' hwaits.ne_queued
      · cases hphase'.symm.trans hdropped
    · exact hsame.trans (w.unused c hqueued)
  quiet := hquiet
  level := hlevel

theorem stop (w : Waiters m) (key : WaiterKey) : Waiters (m.stop key) := by
  refine w.retire .closed nofun rfl ?_ w.level (fun e he => (mem_stop.mp he).1) ?_ ?_
  · intro hlevel
    show MasterSession.stop m.session key = []
    rw [w.quiet hlevel]
    rfl
  · intro c
    refine (receivers_stop m key c).imp (And.imp_left ?_) (And.imp_left ?_)
    · rintro ⟨e, he, hkey, hsender⟩
      exact ⟨e, he, fun hmem => (mem_stop.mp hmem).2 hkey, hsender⟩
    · intro hnone e he hsender
      exact mem_stop.mpr ⟨he, fun hkey => hnone ⟨e, he, hkey, hsender⟩⟩
  · intro e he hgone e' he' heq
    refine hgone (mem_stop.mpr ⟨he, ?_⟩)
    rw [heq]
    exact (mem_stop.mp he').2

theorem stopAll (w : Waiters m) (e : ModbusError) {level : Nat} (hlevel : level ≤ 2) :
    Waiters { m.stopAll e with cleanLevel := level } := by
  refine w.retire (.sent (.error e)) nofun rfl (fun _ => rfl) hlevel nofun ?_ ?_
  · intro c
    by_cases hc : c ∈ m.session.senders
    · obtain ⟨e, he, hsender⟩ := mem_senders.mp hc
      exact .inl ⟨⟨e, he, List.not_mem_nil, hsender⟩, receivers_fill_of_mem hc⟩
    · exact .inr ⟨fun e he hsender => absurd (mem_senders.mpr ⟨e, he, hsender⟩) hc,
        receivers_fill_of_not_mem hc⟩
  · intro e he hgone e' he'
    cases he'

theorem handleFrame (w : Waiters m) (frame : Framing κ ρ) : Waiters (m.handleFrame frame) := by
  unfold ModbusMaster.handleFrame
  cases hroute : m.session.route frame with
  | none => exact w
  | some sent =>
    obtain ⟨c, result⟩ := sent
    obtain ⟨e, he, hkey, hsender⟩ := route_entry hroute
    have hgone : ∀ e' ∈ m.session, e' ∉ m.session.handleFrame frame → e'.1 = .of frame.adu := by
      intro e' he' hgone
      by_contra hne
      exact hgone (mem_stop.mpr ⟨he', hne⟩)
    refine w.retire (.sent result) nofun rfl ?_ w.level (fun e he => (mem_stop.mp he).1) ?_ ?_
    · intro hlevel
      show MasterSession.stop m.session _ = []
      rw [w.quiet hlevel]
      rfl
    · intro c'
      by_cases hc : c' = c
      · exact .inl ⟨⟨e, he, fun hmem => (mem_stop.mp hmem).2 hkey, hsender.trans hc.symm⟩,
          receivers_fill_of_mem (List.mem_singleton.mpr hc)⟩
      · refine .inr ⟨?_, receivers_fill_of_not_mem (fun hmem => hc (List.mem_singleton.mp hmem))⟩
        intro e' he' hsender'
        by_contra hremoved
        have heq := w.keys e' he' e he ((hgone e' he' hremoved).trans hkey.symm)
        exact hc (hsender'.symm.trans (heq.trans hsender))
    · intro e' he' hremoved e'' he'' heq
      exact (mem_stop.mp he'').2 (heq ▸ hgone e' he' hremoved)

/-- No waiter belongs to a call that was not armed. -/
theorem sender_ne (w : Waiters m) (h : ∀ call, m.calls c = some call → call.phase = .queued)
    {e : WaiterKey × WaitingState Nat} (he : e ∈ m.session) : e.2.sender ≠ c := by
  rintro rfl
  obtain ⟨call, hcall, hphase⟩ := w.entry e he
  have hqueued := h call hcall
  rcases hphase with ⟨hwaits, -⟩ | hdropped
  · exact hwaits.ne_queued hqueued
  · cases hqueued.symm.trans hdropped

/-- Call `c` moves to another phase. -/
theorem move (w : Waiters m) {outgoing : Outgoing} {phase : Phase κ ρ}
    (hcalls : t.calls = Function.update m.calls c (some ⟨outgoing, phase⟩))
    (hsession : t.session = m.session) (hreceivers : t.receivers = m.receivers)
    (hlevel : t.cleanLevel = m.cleanLevel)
    (hentry : ∀ e ∈ m.session, e.2.sender = c →
      phase.Waits e.1 ∧ m.receivers c = .empty ∨ phase = .dropped)
    (harmed : ∀ key, phase.Waits key → m.receivers c = .empty →
      ∃ e ∈ m.session, e.1 = key ∧ e.2.sender = c)
    (hunused : phase = .queued → m.receivers c = .empty) : Waiters t where
  entry := by
    intro e he
    rw [hsession] at he
    rw [hcalls, hreceivers]
    by_cases hc : e.2.sender = c
    · rw [hc, Function.update_self]
      exact ⟨_, rfl, hentry e he hc⟩
    · rw [Function.update_of_ne hc]
      exact w.entry e he
  keys := by
    rw [hsession]
    exact w.keys
  armed := by
    intro c' call key hcall hwaits hempty
    rw [hcalls] at hcall
    rw [hreceivers] at hempty
    rw [hsession]
    by_cases hc : c' = c
    · subst hc
      rw [Function.update_self] at hcall
      cases hcall
      exact harmed key hwaits hempty
    · rw [Function.update_of_ne hc] at hcall
      exact w.armed c' call key hcall hwaits hempty
  unused := by
    intro c' hqueued
    rw [hreceivers]
    by_cases hc : c' = c
    · subst hc
      rw [hcalls, Function.update_self] at hqueued
      exact hunused (hqueued _ rfl)
    · rw [hcalls, Function.update_of_ne hc] at hqueued
      exact w.unused c' hqueued
  quiet := by
    rw [hsession, hlevel]
    exact w.quiet
  level := by
    rw [hlevel]
    exact w.level

/-- A call without a waiter ends. -/
theorem finish (w : Waiters m) {outgoing : Outgoing} {outcome : Outcome κ ρ}
    (hsender : ∀ e ∈ m.session, e.2.sender ≠ c) :
    Waiters (m.finish c outgoing (.returned outcome)) := by
  refine w.move rfl rfl rfl rfl ?_ ?_ nofun
  · intro e he hc
    exact absurd hc (hsender e he)
  · intro key hwaits
    rcases hwaits with h | h <;> cases h

/-- After its `stop` a call has no waiter. -/
theorem sender_ne_of_stop (w : Waiters m) {call : Call κ ρ} (hcall : m.calls c = some call)
    (hwaits : call.phase.Waits key) : ∀ e ∈ (m.stop key).session, e.2.sender ≠ c := by
  rintro e he rfl
  obtain ⟨he, hne⟩ := mem_stop.mp he
  obtain ⟨call', hcall', hphase⟩ := w.entry e he
  cases hcall.symm.trans hcall'
  rcases hphase with ⟨hwaits', -⟩ | hdropped
  · exact hne (hwaits'.key_eq hwaits)
  · exact hwaits.ne_dropped hdropped

/-- A call whose receiver has something has no waiter. -/
theorem sender_ne_of_receiver (w : Waiters m) {call : Call κ ρ} (hcall : m.calls c = some call)
    (hwaits : call.phase.Waits key) (hreceiver : m.receivers c ≠ .empty) :
    ∀ e ∈ m.session, e.2.sender ≠ c := by
  rintro e he rfl
  obtain ⟨call', hcall', hphase⟩ := w.entry e he
  cases hcall.symm.trans hcall'
  rcases hphase with ⟨-, hempty⟩ | hdropped
  · exact hreceiver hempty
  · exact hwaits.ne_dropped hdropped

theorem arm (w : Waiters m) {outgoing : Outgoing} (checks : List PreCheck) (nextTid : UInt16)
    (adu : ApplicationDataUnit) (hlevel : m.cleanLevel = 0)
    (hunused : ∀ call, m.calls c = some call → call.phase = .queued) :
    Waiters (m.arm c outgoing key checks nextTid adu) := by
  have w' := w.stop key
  have hsender : ∀ e ∈ (m.stop key).session, e.2.sender ≠ c := fun e he =>
    w.sender_ne hunused (mem_stop.mp he).1
  have hempty : (m.stop key).receivers c = .empty := w'.unused c hunused
  have hmem : ∀ e, e ∈ (m.arm c outgoing key checks nextTid adu).session ↔
      e ∈ (m.stop key).session ∨ e = (key, ⟨checks, c⟩) := by
    intro e
    exact List.mem_append.trans (or_congr_right List.mem_singleton)
  have hsame : (m.arm c outgoing key checks nextTid adu).cleanLevel = 0 := hlevel
  refine ⟨?_, ?_, ?_, ?_, fun hpos => by omega, by omega⟩
  · intro e he
    rcases (hmem e).mp he with he | rfl
    · obtain ⟨call, hcall, hphase⟩ := w'.entry e he
      exact ⟨call, (Function.update_of_ne (hsender e he) ..).trans hcall, hphase⟩
    · exact ⟨_, Function.update_self .., .inl ⟨.inl rfl, hempty⟩⟩
  · intro e he e' he' heq
    rcases (hmem e).mp he with he | rfl <;> rcases (hmem e').mp he' with he' | rfl
    · exact w'.keys e he e' he' heq
    · exact absurd heq (mem_stop.mp he).2
    · exact absurd heq.symm (mem_stop.mp he').2
    · rfl
  · intro c' call key' hcall hwaits hreceiver
    by_cases hc : c' = c
    · subst hc
      cases (Function.update_self ..).symm.trans hcall
      exact ⟨_, (hmem _).mpr (.inr rfl), (Phase.Waits.key_eq (.inl rfl) hwaits), rfl⟩
    · obtain ⟨e, he, hkey, hsend⟩ := w'.armed c' call key'
        ((Function.update_of_ne hc ..).symm.trans hcall) hwaits hreceiver
      exact ⟨e, (hmem e).mpr (.inl he), hkey, hsend⟩
  · intro c' hqueued
    by_cases hc : c' = c
    · subst hc
      exact hempty
    · exact w'.unused c' fun call hcall => hqueued call ((Function.update_of_ne hc ..).trans hcall)

theorem step (w : Waiters m) {label : Label κ ρ} (h : Moves m label t) : Waiters t := by
  cases h with
  | @rejected c outgoing hfresh hlevel =>
    refine w.move rfl rfl rfl rfl ?_ ?_ nofun
    · intro e he hc
      exact absurd hc (w.sender_ne (fun call hcall => nomatch hfresh.symm.trans hcall) he)
    · intro key hwaits
      rcases hwaits with h | h <;> cases h
  | @queued c outgoing hfresh hlevel hfifo =>
    have hunused : ∀ call, m.calls c = some call → call.phase = .queued :=
      fun call hcall => nomatch hfresh.symm.trans hcall
    refine w.move rfl rfl rfl rfl ?_ ?_ (fun _ => w.unused c hunused)
    · intro e he hc
      exact absurd hc (w.sender_ne hunused he)
    · intro key hwaits
      rcases hwaits with h | h <;> cases h
  | dispatched hfresh hlevel hconcurrent =>
    exact w.arm _ _ _ hlevel (fun call hcall => nomatch hfresh.symm.trans hcall)
  | @refused c outgoing hcall howner hlevel =>
    refine w.finish fun e he => ?_
    rw [w.quiet hlevel] at he
    cases he
  | resumed hcall howner hlevel =>
    refine w.arm _ _ _ hlevel (fun call hcall' => ?_)
    cases hcall.symm.trans hcall'
    rfl
  | failed hcall => exact (w.stop _).finish (w.sender_ne_of_stop hcall (.inl rfl))
  | broadcast hcall hunit => exact (w.stop _).finish (w.sender_ne_of_stop hcall (.inl rfl))
  | @awaits c outgoing key hcall hunit =>
    refine w.move rfl rfl rfl rfl ?_ ?_ nofun
    · rintro e he rfl
      obtain ⟨call, hcall', hphase⟩ := w.entry e he
      cases hcall.symm.trans hcall'
      rcases hphase with ⟨hwaits, hempty⟩ | hdropped
      · obtain rfl := hwaits.key_eq (.inl rfl)
        exact .inl ⟨.inr rfl, hempty⟩
      · cases hdropped
    · intro key' hwaits hempty
      obtain rfl := hwaits.key_eq (.inr rfl)
      exact w.armed c _ _ hcall (.inl rfl) hempty
  | answered hcall hreceiver =>
    exact w.finish (w.sender_ne_of_receiver hcall (.inr rfl) (by rw [hreceiver]; nofun))
  | cleared hcall hreceiver =>
    exact w.finish (w.sender_ne_of_receiver hcall (.inr rfl) (by rw [hreceiver]; nofun))
  | expired hcall hreceiver => exact (w.stop _).finish (w.sender_ne_of_stop hcall (.inr rfl))
  | abandoned hcall hlive =>
    refine w.move rfl rfl rfl rfl (fun _ _ _ => .inr rfl) ?_ nofun
    intro key hwaits
    rcases hwaits with h | h <;> cases h
  | routed => exact w.handleFrame _
  | @errored e => exact w.stopAll e w.level
  | reopened hlevel =>
    exact ⟨w.entry, w.keys, w.armed, w.unused, nofun, Nat.zero_le 2⟩
  | cleaned hlevel hmost hlabel => exact w.stopAll _ hmost
  | idle hlevel hlabel => exact w

end Waiters

/-! ## No waiter leaks -/

/-- A call is dropped only when the session holds no waiter of it. -/
def DropsUnarmed (m : ModbusMaster κ ρ) : Label κ ρ → Prop
  | .dropFuture c => ∀ e ∈ m.session, e.2.sender ≠ c
  | _ => True

/-- No waiter belongs to a dropped call. -/
def Kept (m : ModbusMaster κ ρ) : Prop :=
  ∀ e ∈ m.session, ∀ call, m.calls e.2.sender = some call → call.phase ≠ .dropped

/-- A step that sets call `c` to a phase and leaves no new waiter of another call. -/
theorem Kept.set (h : Kept m) {c : Nat} {outgoing : Outgoing} {phase : Phase κ ρ}
    (hcalls : t.calls = Function.update m.calls c (some ⟨outgoing, phase⟩))
    (hsession : ∀ e ∈ t.session, e ∈ m.session ∨ e.2.sender = c)
    (hphase : (∃ e ∈ t.session, e.2.sender = c) → phase ≠ .dropped) : Kept t := by
  intro e he call hcall
  rw [hcalls] at hcall
  by_cases hc : e.2.sender = c
  · rw [hc, Function.update_self] at hcall
    cases hcall
    exact hphase ⟨e, he, hc⟩
  · rw [Function.update_of_ne hc] at hcall
    exact h e ((hsession e he).resolve_right hc) call hcall

/-- A step that only removes waiters. -/
theorem Kept.of_subset (h : Kept m) (hcalls : t.calls = m.calls)
    (hsession : ∀ e ∈ t.session, e ∈ m.session) : Kept t := by
  intro e he
  rw [hcalls]
  exact h e (hsession e he)

theorem mem_arm {c : Nat} {outgoing : Outgoing} {key : WaiterKey} {checks : List PreCheck}
    {nextTid : UInt16} {adu : ApplicationDataUnit} :
    ∀ e ∈ (m.arm c outgoing key checks nextTid adu).session, e ∈ m.session ∨ e.2.sender = c := by
  intro e he
  rcases List.mem_append.mp he with he | he
  · exact .inl (mem_stop.mp he).1
  · exact .inr (by rw [List.mem_singleton.mp he])

theorem Kept.step (h : Kept m) {label : Label κ ρ} (hdrops : DropsUnarmed m label)
    (hmoves : Moves m label t) : Kept t := by
  have hsame : ∀ c, ∀ e ∈ m.session, e ∈ m.session ∨ e.2.sender = c := fun _ _ he => .inl he
  have hstop : ∀ key c, ∀ e ∈ (m.stop key).session, e ∈ m.session ∨ e.2.sender = c :=
    fun _ _ e he => .inl (mem_stop.mp he).1
  cases hmoves with
  | rejected hfresh hlevel => exact h.set rfl (hsame _) (fun _ => nofun)
  | queued hfresh hlevel hfifo => exact h.set rfl (hsame _) (fun _ => nofun)
  | dispatched hfresh hlevel hconcurrent => exact h.set rfl mem_arm (fun _ => nofun)
  | refused hcall howner hlevel => exact h.set rfl (hsame _) (fun _ => nofun)
  | resumed hcall howner hlevel => exact h.set rfl mem_arm (fun _ => nofun)
  | failed hcall => exact h.set rfl (hstop _ _) (fun _ => nofun)
  | broadcast hcall hunit => exact h.set rfl (hstop _ _) (fun _ => nofun)
  | awaits hcall hunit => exact h.set rfl (hsame _) (fun _ => nofun)
  | answered hcall hreceiver => exact h.set rfl (hsame _) (fun _ => nofun)
  | cleared hcall hreceiver => exact h.set rfl (hsame _) (fun _ => nofun)
  | expired hcall hreceiver => exact h.set rfl (hstop _ _) (fun _ => nofun)
  | abandoned hcall hlive =>
    refine h.set rfl (hsame _) ?_
    rintro ⟨e, he, hc⟩
    exact absurd hc (hdrops e he)
  | @routed frame =>
    unfold ModbusMaster.handleFrame
    cases m.session.route frame with
    | none => exact h
    | some sent => exact h.of_subset rfl fun e he => (mem_stop.mp he).1
  | errored => exact h.of_subset rfl nofun
  | reopened hlevel => exact h
  | cleaned hlevel hmost hlabel => exact h.of_subset rfl nofun
  | idle hlevel hlabel => exact h

variable {protocol : ApplicationProtocol} {concurrent : Bool} {labels : List (Label κ ρ)}

/-- **No waiter leaks** when no call is dropped while its waiter is armed: every waiter is that of a call
that is writing or awaiting its response under the waiter's key. -/
theorem waiters_awaited (run : exec ModbusMaster.step (.new protocol concurrent) labels = some m)
    (drops : Meets ModbusMaster.step DropsUnarmed (.new protocol concurrent) labels) :
    (∀ e ∈ m.session, ∃ call, m.calls e.2.sender = some call ∧ call.phase.Waits e.1) ∧
      ((∀ c call, m.calls c = some call → ¬ call.phase.Live) → m.session = []) := by
  have hkept : Waiters m ∧ Kept m :=
    exec_invariant (P := fun m => Waiters m ∧ Kept m) (fun m label t hm hlabel hstep =>
      ⟨hm.1.step (moves_of_step hstep), hm.2.step hlabel (moves_of_step hstep)⟩) run drops
      ⟨waiters_init protocol concurrent, nofun⟩
  have hawaited : ∀ e ∈ m.session, ∃ call, m.calls e.2.sender = some call ∧ call.phase.Waits e.1 := by
    intro e he
    obtain ⟨call, hcall, hphase⟩ := hkept.1.entry e he
    exact ⟨call, hcall, (hphase.resolve_right (hkept.2 e he call hcall)).1⟩
  refine ⟨hawaited, ?_⟩
  intro hnone
  apply List.eq_nil_iff_forall_not_mem.mpr
  intro e he
  obtain ⟨call, hcall, hwaits⟩ := hawaited e he
  apply hnone _ call hcall
  rcases hwaits with h | h <;> rw [h] <;> trivial

/-- A read of one register of unit 1, and its response. -/
def readOne : Outgoing := ⟨⟨none, 1, 3, [0, 0, 0, 1]⟩, [checkUnitFc 1 3, checkLength 3, checkByteCount 2]⟩

/-- The response to `readOne`, with a transaction id or without. -/
def readReply (transaction : Option UInt16) : Framing Nat Unit := ⟨⟨transaction, 1, 3, [2, 0, 7]⟩, [], (), 0⟩

/-- A call that is dropped once its response is there. -/
theorem waiters_awaited_answered : ∃ m : ModbusMaster Nat Unit, exec ModbusMaster.step (.new .tcp true)
    [.issue 0 readOne, .written 0 (.ok ()), .frame (readReply (some 1)), .dropFuture 0] = some m ∧
      ∀ e ∈ m.session, ∃ call, m.calls e.2.sender = some call ∧ call.phase.Waits e.1 := by
  have run : exec ModbusMaster.step (.new .tcp true : ModbusMaster Nat Unit)
    [.issue 0 readOne, .written 0 (.ok ()), .frame (readReply (some 1)), .dropFuture 0] = some _ := rfl
  have drops : Meets ModbusMaster.step DropsUnarmed (.new .tcp true : ModbusMaster Nat Unit)
      [.issue 0 readOne, .written 0 (.ok ()), .frame (readReply (some 1)), .dropFuture 0] :=
    .cons rfl trivial (.cons rfl trivial (.cons rfl trivial (.cons rfl (fun e he => nomatch he) trivial)))
  exact ⟨_, run, (waiters_awaited run drops).1⟩

/-- A call that is dropped while it awaits its response leaves its waiter behind. -/
theorem dropFuture_leaks : ∃ m : ModbusMaster Nat Unit, exec ModbusMaster.step (.new .tcp true)
    [.issue 0 readOne, .written 0 (.ok ()), .dropFuture 0] = some m ∧
      (∀ c call, m.calls c = some call → ¬ call.phase.Live) ∧ m.session.map (·.1) = [.tid 1] := by
  refine ⟨_, rfl, ?_, rfl⟩
  intro c call hcall
  by_cases hc : c = 0
  · subst hc
    cases hcall
    exact id
  · have hcall : Function.update (Function.update (Function.update (fun _ => none) 0 _) 0 _) 0 _ c =
      some call := hcall
    simp only [Function.update_of_ne hc] at hcall
    cases hcall

end RsModbus.Master.Lifecycle
