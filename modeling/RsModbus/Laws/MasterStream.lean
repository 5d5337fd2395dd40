import Mathlib.Data.List.Nodup
import RsModbus.Laws.MasterCalls
import RsModbus.Laws.TcpFraming
import RsModbus.Master.Stream

/-!
# Late responses on a FIFO TCP master

* `Master.late_response_harmless`: while every `flush()` finds the buffer empty, no call draws the id of
  a request whose response is still on its way, the framing task never lags and no call gives up on a
  response that has been delivered, a waiting call whose response has been delivered returns what its
  checks make of that response.
* `Master.flushed_part_loses_response`: when a flush drops the first part of a late response, the rest
  of it is taken for a header, and the response of the next call goes with it.

`Serves` says what the session owes the calls when some responses have been handled: the one call
that holds the queue lock has its waiter until its own response comes, and then its slot has the
verdict on it. `Flows` says how the stream stands: the responses handled, those that the framing task
has still to receive, and a part of the next.
-/

namespace RsModbus.Master

open Library

variable {κ ρ : Type}

/-! ## One call at a time -/

/-- The call holds the queue lock of a FIFO master. -/
def Phase.Holding : Phase κ ρ → Prop
  | .queued => False
  | .done _ => False
  | _ => True

/-- The call has a waiter or a reply. -/
def Phase.Waiting : Phase κ ρ → Prop
  | .armed => True
  | .awaiting => True
  | _ => False

theorem Phase.Waiting.holding {phase : Phase κ ρ} (h : phase.Waiting) : phase.Holding := by
  cases phase <;> trivial

/-- An outstanding call that has an id holds the lock. -/
theorem Call.holding {m : ModbusMaster κ ρ} (w : Waiters m) {c : Nat} {call : Call κ ρ} {id : Id}
    (hcall : m.calls c = some call) (hout : call.outstanding = some id) : call.phase.Holding := by
  have hid := Call.outstanding_eq hout
  cases hphase : call.phase with
  | queued =>
    rw [w.early c call hcall (by rw [hphase]; trivial)] at hid
    cases hid
  | done reply =>
    rw [Call.outstanding, hphase] at hout
    cases hout
  | _ => trivial

/-! ## What the session owes the calls -/

/-- Responses of the slave, each with the call it answers. -/
abbrev Answers := List (Nat × ApplicationDataUnit)

/-- A waiting call has its waiter, and its response has not been handled; or its slot has the verdict
on its response. -/
def Awaits (m : ModbusMaster κ ρ) (handled : Answers) (c : Nat) (call : Call κ ρ) (id : Id) : Prop :=
  (m.slots c = .empty ∧ (∃ e ∈ m.session, e.2.sender = c) ∧ c ∉ handled.map (·.1)) ∨
    ∃ frame i, (c, frame.adu) ∈ handled ∧ m.slots c = .filled ⟨call.verdict id.tid frame, some i⟩

/-- The response answers a request that has been sent, with its id and in a frame's length. -/
def Named (m : ModbusMaster κ ρ) (a : Nat × ApplicationDataUnit) : Prop :=
  ∃ call id, m.calls a.1 = some call ∧ call.id = some id ∧ call.phase.Started ∧
    a.2.transaction = some id.tid ∧ a.2.data.length ≤ 252

/-- A FIFO master when the slave has given the answers `answered`, and `handled` of them have
reached the session. -/
structure Serves (m : ModbusMaster κ ρ) (answered handled : Answers) : Prop where
  fifo : m.concurrent = false
  opened : m.closed = false
  waiters : Waiters m
  holder : ∀ c call, m.calls c = some call → call.phase.Holding → m.queueLock = some c
  given : handled ⊆ answered
  named : ∀ a ∈ answered, Named m a
  -- Only the call's own response can still come under its id.
  distinct : ∀ c c' call call' id id', c' ≠ c → m.calls c = some call → m.calls c' = some call' →
    call.outstanding = some id → call'.id = some id' → c' ∉ handled.map (·.1) → id'.tid ≠ id.tid
  waiting : ∀ c call id, m.calls c = some call → call.phase.Waiting → call.id = some id →
    Awaits m handled c call id

namespace Serves

variable {m t : ModbusMaster κ ρ} {answered handled : Answers} {c : Nat} {call : Call κ ρ}

theorem start (n : Nat) : Serves (.opened false n : ModbusMaster κ ρ) [] [] where
  fifo := rfl
  opened := rfl
  waiters := .opened false n
  holder _ _ h := nomatch h
  given := List.Subset.refl _
  named _ h := nomatch h
  distinct _ _ _ _ _ _ _ h := nomatch h
  waiting _ _ _ h := nomatch h

/-- A call moves on while no other call holds the lock. -/
theorem move (v : Serves m answered handled) (w : Waiters t) {call' : Call κ ρ}
    (hcall : m.calls c = some call) (hcalls : t.calls = (m.setCall c call').calls)
    (hfifo : t.concurrent = m.concurrent) (hopened : t.closed = m.closed)
    (alone : ∀ c' call₁, m.calls c' = some call₁ → call₁.phase.Holding → c' = c)
    (hlock : call'.phase.Holding → t.queueLock = some c)
    (hid : call.id.isSome → call'.id = call.id)
    (hstarted : call.phase.Started → call'.phase.Started)
    (hdistinct : ∀ c' call₁ id id', c' ≠ c → m.calls c' = some call₁ → call'.outstanding = some id →
      call₁.id = some id' → c' ∉ handled.map (·.1) → id'.tid ≠ id.tid)
    (hwaiting : call'.phase.Waiting → ∀ id, call'.id = some id → Awaits t handled c call' id) :
    Serves t answered handled where
  fifo := hfifo.trans v.fifo
  opened := hopened.trans v.opened
  waiters := w
  holder c' call₁ hcall₁ hholding := by
    rw [hcalls] at hcall₁
    rcases ModbusMaster.setCall_cases hcall₁ with ⟨rfl, rfl⟩ | ⟨hne, hold⟩
    · exact hlock hholding
    · exact absurd (alone c' call₁ hold hholding) hne
  given := v.given
  named a ha := by
    obtain ⟨call₁, id, hcall₁, hid₁, hstarted₁, htransaction, hlength⟩ := v.named a ha
    rw [Named, hcalls]
    by_cases hc : a.1 = c
    · rw [hc, hcall] at hcall₁
      cases hcall₁
      refine ⟨call', id, by rw [hc, ModbusMaster.setCall_self], ?_, hstarted hstarted₁,
        htransaction, hlength⟩
      rw [hid (by rw [hid₁]; rfl), hid₁]
    · exact ⟨call₁, id, (ModbusMaster.setCall_of_ne hc).trans hcall₁, hid₁, hstarted₁,
        htransaction, hlength⟩
  distinct c₁ c₂ call₁ call₂ id₁ id₂ hne h₁ h₂ hout₁ hid₂ hnot := by
    have hholding := Call.holding w h₁ hout₁
    rw [hcalls] at h₁ h₂
    rcases ModbusMaster.setCall_cases h₁ with ⟨rfl, rfl⟩ | ⟨hne₁, hold₁⟩
    · rw [ModbusMaster.setCall_of_ne hne] at h₂
      exact hdistinct c₂ call₂ id₁ id₂ hne h₂ hout₁ hid₂ hnot
    · exact absurd (alone c₁ call₁ hold₁ hholding) hne₁
  waiting c' call₁ id hcall₁ hphase hid₁ := by
    rw [hcalls] at hcall₁
    rcases ModbusMaster.setCall_cases hcall₁ with ⟨rfl, rfl⟩ | ⟨hne, hold⟩
    · exact hwaiting hphase id hid₁
    · exact absurd (alone c' call₁ hold hphase.holding) hne

/-- The holder of the lock is alone. -/
theorem alone (v : Serves m answered handled) (hcall : m.calls c = some call)
    (hholding : call.phase.Holding) :
    ∀ c' call₁, m.calls c' = some call₁ → call₁.phase.Holding → c' = c := by
  intro c' call₁ hcall₁ hholding₁
  have h := v.holder c call hcall hholding
  rw [v.holder c' call₁ hcall₁ hholding₁] at h
  exact Option.some.inj h

/-- The holder of the lock moves on under its id, with no new waiter. -/
theorem advance (v : Serves m answered handled) (w : Waiters t) {phase : Phase κ ρ}
    (hcall : m.calls c = some call) (hholding : call.phase.Holding)
    (hcalls : t.calls = (m.setCall c { call with phase := phase }).calls)
    (hfifo : t.concurrent = m.concurrent) (hopened : t.closed = m.closed)
    (hlock : phase.Holding → t.queueLock = some c)
    (hstarted : call.phase.Started → phase.Started)
    (hwaiting : phase.Waiting → ∀ id, call.id = some id →
      Awaits t handled c { call with phase := phase } id) : Serves t answered handled := by
  refine v.move w hcall hcalls hfifo hopened (v.alone hcall hholding) hlock (fun _ => rfl) hstarted
    ?_ hwaiting
  intro c' call₁ id id' hne hcall₁ hout hid' hnot
  have hsame : call.outstanding = some id := by
    have hid : Call.id { call with phase := phase } = some id := Call.outstanding_eq hout
    unfold Call.outstanding
    split
    next reply hdone =>
      rw [hdone] at hholding
      exact hholding.elim
    · exact hid
  exact v.distinct c c' call call₁ id id' hne hcall hcall₁ hsame hid' hnot

/-- A call takes the lock. -/
theorem lock (v : Serves m answered handled) (w : Waiters t) (hcall : m.calls c = some call)
    (hphase : call.phase = .queued) (hfree : m.queueLock = none)
    (ht : t = { m.setCall c { call with phase := .locked } with
      queueLock := if m.concurrent then m.queueLock else some c }) : Serves t answered handled := by
  subst ht
  have hnone := v.waiters.early c call hcall (by rw [hphase]; trivial)
  refine v.move w hcall rfl rfl rfl ?_ ?_ (fun _ => rfl) (by rw [hphase]; exact fun h => h) ?_
    fun h => h.elim
  · intro c' call₁ hcall₁ hholding
    rw [v.holder c' call₁ hcall₁ hholding] at hfree
    cases hfree
  · intro _
    exact if_neg (by rw [v.fifo]; exact Bool.false_ne_true)
  · intro _ _ id _ _ _ hout _ _
    have hid : Call.id { call with phase := .locked } = some id := Call.outstanding_eq hout
    cases hnone.symm.trans hid

/-- The holder of the lock draws an id that no response still on its way has. -/
theorem allocate (v : Serves m answered handled) (w : Waiters t) (hcall : m.calls c = some call)
    (hphase : call.phase = .locked)
    (hfresh : ∀ c' call₁ id', m.calls c' = some call₁ → call₁.id = some id' →
      c' ∉ handled.map (·.1) → id'.tid ≠ m.nextTid)
    (ht : t = { m.setCall c { call with id := some ⟨m.nextTid, m.drawn⟩, phase := .allocated } with
      nextTid := (ModbusMaster.allocateTid m.nextTid).2, drawn := m.drawn + 1 }) :
    Serves t answered handled := by
  subst ht
  have hnone := v.waiters.early c call hcall (by rw [hphase]; trivial)
  have hholding : call.phase.Holding := by rw [hphase]; trivial
  refine v.move w hcall rfl rfl rfl (v.alone hcall hholding)
    (fun _ => v.holder c call hcall hholding) ?_ (by rw [hphase]; exact fun h => h) ?_ fun h => h.elim
  · intro h
    rw [hnone] at h
    cases h
  · intro c' call₁ id id' _ hcall₁ hout hid' hnot
    obtain rfl : ⟨m.nextTid, m.drawn⟩ = id := Option.some.inj hout
    exact hfresh c' call₁ id' hcall₁ hid' hnot

/-- The holder of the lock arms its waiter. -/
theorem arm (v : Serves m answered handled) (w : Waiters t) (hcall : m.calls c = some call)
    (hphase : call.phase = .allocated) {id : Id}
    (ht : t = { (m.dropWaiter (.tid id.tid)).setCall c { call with phase := .armed } with
      session := m.session.start (.tid id.tid) (checkTid id.tid :: call.outgoing.checks) c }) :
    Serves t answered handled := by
  subst ht
  have hholding : call.phase.Holding := by rw [hphase]; trivial
  refine v.advance w hcall hholding rfl rfl rfl (fun _ => v.holder c call hcall hholding)
    (fun _ => trivial) fun _ id' hid' => .inl ⟨?_, ?_, ?_⟩
  · exact (v.waiters.dropWaiter _).slot_empty hcall (by rw [hphase]; exact not_false)
  · exact ⟨_, List.mem_append_right _ (List.mem_singleton_self _), rfl⟩
  · intro hmem
    -- what has been answered has been sent
    obtain ⟨a, ha, rfl⟩ := List.mem_map.mp hmem
    obtain ⟨call₁, -, hcall₁, -, hstarted, -⟩ := v.named a (v.given ha)
    rw [hcall] at hcall₁
    cases hcall₁
    rw [hphase] at hstarted
    exact hstarted

/-- A step of a call whose write does not fail, and which draws no id that a response still on its
way has. -/
theorem stepCall (v : Serves m answered handled) (hcall : m.calls c = some call) {action : Action}
    (hwrite : ∀ e, action ≠ .write (.error e))
    (hfresh : action = .allocate → ∀ c' call₁ id', m.calls c' = some call₁ → call₁.id = some id' →
      c' ∉ handled.map (·.1) → id'.tid ≠ m.nextTid)
    (h : m.stepCall c call action = some t) : Serves t answered handled := by
  have w := v.waiters.stepCall hcall h
  rcases ModbusMaster.stepCall_cases h with ⟨-, hphase, hfree, ⟨hclosed, -⟩ | ⟨-, ht⟩⟩ |
    ⟨rfl, hphase, ht⟩ | ⟨id, -, hphase, hid, ht⟩ | ⟨hphase, ⟨-, rfl⟩ | ⟨e, rfl, -⟩⟩ |
    ⟨-, hphase, -, rfl⟩ | ⟨e, id, -, hphase, hid, rfl⟩ |
    ⟨-, hphase, ⟨reply, hslot, rfl⟩ | ⟨hslot, rfl⟩⟩
  -- lock, when the master is closed
  · rw [v.opened] at hclosed
    cases hclosed
  -- lock
  · have hnone : m.queueLock = none := by simpa only [v.fifo, Bool.false_eq_true, false_or] using hfree
    exact v.lock w hcall hphase hnone ht
  -- allocate
  · exact v.allocate w hcall hphase (hfresh rfl) ht
  -- arm
  · exact v.arm w hcall hphase ht
  -- write
  · have hholding : call.phase.Holding := by rw [hphase]; trivial
    exact v.advance w hcall hholding rfl rfl rfl (fun _ => v.holder c call hcall hholding)
      (fun _ => trivial) fun _ id' hid' => v.waiting c call id' hcall (by rw [hphase]; trivial) hid'
  · exact absurd rfl (hwrite e)
  -- timeout
  · have hholding : call.phase.Holding := by rw [hphase]; trivial
    exact v.advance w hcall hholding rfl rfl rfl (fun _ => v.holder c call hcall hholding)
      (fun _ => trivial) fun h => h.elim
  -- stop
  · exact v.advance w hcall (by rw [hphase]; trivial) rfl rfl rfl (fun h => h.elim)
      (fun _ => trivial) fun h => h.elim
  -- resolve
  · exact v.advance w hcall (by rw [hphase]; trivial) rfl rfl rfl (fun h => h.elim)
      (fun _ => trivial) fun h => h.elim
  · exact v.advance w hcall (by rw [hphase]; trivial) rfl rfl rfl (fun h => h.elim)
      (fun _ => trivial) fun h => h.elim

/-- A call is issued. -/
theorem issue (v : Serves m answered handled) {outgoing : Outgoing}
    (h : m.step (.issue c outgoing) = some t) : Serves t answered handled := by
  have w := v.waiters.step h
  rw [ModbusMaster.step] at h
  split at h
  · cases h
  next hnew =>
    have hfresh : m.calls c = none := Option.not_isSome_iff_eq_none.mp fun hsome => hnew (.inl hsome)
    rw [if_neg (by rw [v.opened]; exact Bool.false_ne_true)] at h
    cases h
    refine ⟨v.fifo, v.opened, w, ?_, v.given, ?_, ?_, ?_⟩
    · intro c' call hcall hholding
      rcases ModbusMaster.setCall_cases hcall with ⟨rfl, rfl⟩ | ⟨-, hold⟩
      · exact hholding.elim
      · exact v.holder c' call hold hholding
    · intro a ha
      obtain ⟨call, id, hcall, hrest⟩ := v.named a ha
      exact ⟨call, id, ModbusMaster.setCall_of_fresh hfresh hcall, hrest⟩
    · intro c₁ c₂ call₁ call₂ id₁ id₂ hne h₁ h₂ hout hid hnot
      rcases ModbusMaster.setCall_cases h₁ with ⟨rfl, rfl⟩ | ⟨-, hold₁⟩
      · cases hout
      rcases ModbusMaster.setCall_cases h₂ with ⟨rfl, rfl⟩ | ⟨-, hold₂⟩
      · cases hid
      exact v.distinct c₁ c₂ call₁ call₂ id₁ id₂ hne hold₁ hold₂ hout hid hnot
    · intro c' call id hcall hphase hid
      rcases ModbusMaster.setCall_cases hcall with ⟨rfl, rfl⟩ | ⟨-, hold⟩
      · exact hphase.elim
      · exact v.waiting c' call id hold hphase hid

/-- The slave answers. -/
theorem answer (v : Serves m answered handled) {response : ApplicationDataUnit}
    (h : Named m (c, response)) : Serves m (answered ++ [(c, response)]) handled :=
  { v with
    given := fun _ ha => List.mem_append_left _ (v.given ha)
    named := fun a ha => by
      rcases List.mem_append.mp ha with hold | hnew
      · exact v.named a hold
      · exact List.mem_singleton.mp hnew ▸ h }

/-- The waiter that a response finds is that of its own call. -/
theorem sender_eq (v : Serves m answered handled) {frame : Framing κ ρ} {id : Id}
    (hcall : m.calls c = some call) (hid : call.id = some id)
    (hkey : WaiterKey.of frame.adu = .tid id.tid) (hnot : c ∉ handled.map (·.1)) :
    ∀ e ∈ m.session, e.1 = .of frame.adu → e.2.sender = c := by
  intro e he heq
  by_contra hne
  obtain ⟨call', id', hcall', hid', hown, harmed, -⟩ := v.waiters.waits e he
  refine v.distinct e.2.sender c call' call id' id (Ne.symm hne) hcall' hcall
    (harmed.outstanding.trans hid') hid hnot ?_
  rw [hkey, hown] at heq
  exact (WaiterKey.tid.inj heq).symm

section Sender

variable {frame : Framing κ ρ} (hsender : ∀ e ∈ m.session, e.1 = .of frame.adu → e.2.sender = c)

include hsender

/-- A response leaves the slots of other calls. -/
theorem handleFrame_slot_of_ne (v : Serves m answered handled) {c' : Nat} (hne : c' ≠ c) :
    (m.handleFrame frame).slots c' = m.slots c' := by
  cases hroute : m.session.route frame with
  | none => rw [ModbusMaster.handleFrame_of_none hroute]
  | some sent =>
    obtain ⟨c₁, result⟩ := sent
    obtain ⟨e, he, hkey, rfl, -⟩ := v.waiters.route_eq hroute
    have hother : c' ∉ [e.2.sender] := by
      rw [hsender e he hkey]
      exact fun hmem => hne (List.mem_singleton.mp hmem)
    rw [ModbusMaster.handleFrame_slots hroute, if_neg hother]

/-- A response fills the slot of its own call, if the call still has a waiter. -/
theorem handleFrame_slot_self (v : Serves m answered handled) {id : Id}
    (hcall : m.calls c = some call) (hid : call.id = some id)
    (hkey : WaiterKey.of frame.adu = .tid id.tid) {e : WaiterKey × WaitingState Nat} (he : e ∈ m.session)
    (hc : e.2.sender = c) :
    (m.handleFrame frame).slots c = .filled ⟨call.verdict id.tid frame, some m.arrived.length⟩ := by
  cases hroute : m.session.route frame with
  | none =>
    obtain ⟨call₁, id₁, hcall₁, hid₁, hown, -⟩ := v.waiters.waits e he
    rw [hc] at hcall₁
    cases hcall₁.symm.trans hcall
    cases hid₁.symm.trans hid
    exact absurd (hown.trans hkey.symm) (ModbusMaster.key_ne_of_none hroute he)
  | some sent =>
    obtain ⟨c₁, result⟩ := sent
    obtain ⟨e', he', hkey', rfl, call₁, id₁, hcall₁, hid₁, -, rfl⟩ := v.waiters.route_eq hroute
    rw [hsender e' he' hkey'] at hcall₁ hroute
    cases hcall₁.symm.trans hcall
    cases hid₁.symm.trans hid
    rw [ModbusMaster.handleFrame_slots hroute, if_pos List.mem_cons_self]

end Sender

/-- The next response reaches the session. -/
theorem handleFrame (v : Serves m answered handled) {frame : Framing κ ρ}
    (hanswered : (c, frame.adu) ∈ answered) (hnot : c ∉ handled.map (·.1)) :
    Serves (m.handleFrame frame) answered (handled ++ [(c, frame.adu)]) := by
  obtain ⟨call, id, hcall, hid, -, htransaction, -⟩ := v.named _ hanswered
  have hkey : WaiterKey.of frame.adu = .tid id.tid := by rw [WaiterKey.of, htransaction]
  have hsender : ∀ e ∈ m.session, e.1 = .of frame.adu → e.2.sender = c :=
    v.sender_eq hcall hid hkey hnot
  have hmap : ∀ c', c' ∉ (handled ++ [(c, frame.adu)]).map (·.1) ↔
      c' ∉ handled.map (·.1) ∧ c' ≠ c := by
    intro c'
    rw [List.map_append, List.mem_append, not_or]
    exact and_congr_right' (not_congr List.mem_singleton)
  obtain ⟨hcalls, -, -⟩ := m.handleFrame_calls frame
  obtain ⟨hfifo, hopened, hlock⟩ := m.handleFrame_lock frame
  refine ⟨hfifo.trans v.fifo, hopened.trans v.opened, v.waiters.handleFrame frame,
    hcalls ▸ hlock ▸ v.holder, ?_, ?_, ?_, ?_⟩
  · intro a ha
    rcases List.mem_append.mp ha with hold | hnew
    · exact v.given hold
    · exact List.mem_singleton.mp hnew ▸ hanswered
  · simpa only [Named, hcalls] using v.named
  · rw [hcalls]
    intro c₁ c₂ call₁ call₂ id₁ id₂ hne h₁ h₂ hout₁ hid₂ hnot₂
    exact v.distinct c₁ c₂ call₁ call₂ id₁ id₂ hne h₁ h₂ hout₁ hid₂ ((hmap c₂).mp hnot₂).1
  · intro c' call' id' hcall' hphase hid'
    rw [hcalls] at hcall'
    rcases v.waiting c' call' id' hcall' hphase hid' with
      ⟨hempty, ⟨e, he, rfl⟩, hnot'⟩ | ⟨frame', i, hhandled, hfilled⟩
    · by_cases hc : e.2.sender = c
      · -- the call's own response
        have hslot := handleFrame_slot_self hsender v hcall hid hkey he hc
        rw [hc] at hcall' ⊢
        cases hcall'.symm.trans hcall
        cases hid'.symm.trans hid
        exact .inr ⟨frame, m.arrived.length, List.mem_append_right _ List.mem_cons_self, hslot⟩
      · -- a response to another call, which has given up
        refine .inl ⟨(handleFrame_slot_of_ne hsender v hc).trans hempty, ⟨e, ?_, rfl⟩,
          (hmap e.2.sender).mpr ⟨hnot', hc⟩⟩
        exact ModbusMaster.mem_handleFrame he fun heq => hc (hsender e he heq)
    · have hkept : (m.handleFrame frame).slots c' = m.slots c' :=
        v.waiters.step_slot (show m.step (.frame frame) = some _ from rfl) (by simp [hfilled])
      exact .inr ⟨frame', i, List.mem_append_left _ hhandled, hkept.trans hfilled⟩

end Serves

/-! ## Replies -/

/-- A call that has a reply in its slot and is about to return it, or has returned it. -/
def Replied (m : ModbusMaster κ ρ) (c : Nat) (call : Call κ ρ) (reply : Reply κ ρ) : Prop :=
  ∃ phase, m.calls c = some { call with phase := phase } ∧
    (phase.Waiting ∧ m.slots c = .filled reply ∨ phase = .done reply)

namespace Replied

variable {m t : ModbusMaster κ ρ} {c : Nat} {call : Call κ ρ} {reply : Reply κ ρ}

/-- A step that leaves the call leaves its reply. -/
theorem frame (h : Replied m c call reply) (w : Waiters m) {label : Label κ ρ}
    (hstep : m.step label = some t) (hcalls : t.calls c = m.calls c) : Replied t c call reply := by
  obtain ⟨phase, hcall, ⟨hphase, hslot⟩ | hdone⟩ := h
  · refine ⟨phase, hcalls.trans hcall, .inl ⟨hphase, ?_⟩⟩
    rw [w.step_slot hstep (by simp [hslot]), hslot]
  · exact ⟨phase, hcalls.trans hcall, .inr hdone⟩

/-- A step of the call itself, unless its write fails, returns the reply or waits on. -/
theorem stepCall (h : Replied m c call reply) {action : Action}
    (hstep : m.step (.call c action) = some t) (hwrite : ∀ e, action ≠ .write (.error e)) :
    Replied t c call reply := by
  obtain ⟨phase, hcall, ⟨hphase, hslot⟩ | rfl⟩ := h
  · obtain ⟨call', hcall', hcallstep⟩ := Option.bind_eq_some_iff.mp hstep
    cases hcall.symm.trans hcall'
    rcases ModbusMaster.stepCall_cases hcallstep with ⟨-, rfl, -⟩ | ⟨-, rfl, -⟩ | ⟨_, -, rfl, -⟩ |
      ⟨rfl, ⟨-, rfl⟩ | ⟨e, rfl, -⟩⟩ | ⟨-, rfl, hempty, -⟩ | ⟨_, _, -, rfl, -⟩ |
      ⟨-, rfl, ⟨reply', hslot', rfl⟩ | ⟨hslot', -⟩⟩
    · exact hphase.elim
    · exact hphase.elim
    · exact hphase.elim
    · exact ⟨.awaiting, ModbusMaster.setCall_self, .inl ⟨trivial, hslot⟩⟩
    · exact absurd rfl (hwrite e)
    · cases hslot.symm.trans hempty
    · exact hphase.elim
    · cases hslot.symm.trans hslot'
      exact ⟨.done reply, ModbusMaster.setCall_self, .inr rfl⟩
    · cases hslot.symm.trans hslot'
  · obtain ⟨call', hcall', hcallstep⟩ := Option.bind_eq_some_iff.mp hstep
    cases hcall.symm.trans hcall'
    rw [ModbusMaster.stepCall_done rfl] at hcallstep
    cases hcallstep

theorem step (h : Replied m c call reply) (w : Waiters m) {label : Label κ ρ}
    (hstep : m.step label = some t) (hwrite : ∀ e, label ≠ .call c (.write (.error e))) :
    Replied t c call reply := by
  cases label with
  | issue c' outgoing =>
    refine h.frame w hstep ?_
    rw [ModbusMaster.step] at hstep
    split at hstep
    · cases hstep
    next hnew =>
      have hne : c ≠ c' := by
        rintro rfl
        obtain ⟨phase, hcall, -⟩ := h
        exact hnew (.inl (hcall ▸ rfl))
      split at hstep <;>
      · cases hstep
        exact ModbusMaster.setCall_of_ne hne
  | call c' action =>
    by_cases hc : c' = c
    · subst hc
      exact h.stepCall hstep fun e heq => hwrite e (heq ▸ rfl)
    · obtain ⟨call', -, hcallstep⟩ := Option.bind_eq_some_iff.mp hstep
      exact h.frame w hstep (ModbusMaster.stepCall_calls hcallstep (Ne.symm hc))
  | frame frame =>
    refine h.frame w hstep ?_
    cases hstep
    rw [(m.handleFrame_calls frame).1]
  | error e =>
    refine h.frame w hstep ?_
    cases hstep
    rfl
  | closed =>
    refine h.frame w hstep ?_
    cases hstep
    rfl

end Replied

/-! ## The stream -/

/-- A master that has just been opened, on connection `k`. -/
def Stream.opened (k : κ) (n : Nat) : Stream κ ρ where
  connection := k
  master := .opened false n

/-- The bytes of some answers. -/
def Answers.bytes (answers : Answers) : Bytes := answers.flatMap fun a => responseBytes a.2

/-- The whole of the response to call `c` has been delivered: at most later responses are still on
the wire. -/
def Stream.Delivered (s : Stream κ ρ) (c : Nat) (response : ApplicationDataUnit) : Prop :=
  ∃ before after : Answers, s.answered = before ++ (c, response) :: after ∧
    s.wire.length ≤ (Answers.bytes after).length

/-- The framing task has received the response to call `c`. -/
def Stream.Received (s : Stream κ ρ) (c : Nat) : Prop :=
  c ∈ (s.answered.take s.received).map (·.1)

/-- The bytes the application layer holds for the connection. -/
def Stream.pending (s : Stream κ ρ) : Bytes := (s.buffers s.connection).getD []

/-- What the framing task has still to receive, if no more is lost. -/
def Stream.unread (s : Stream κ ρ) : List (Emit κ ρ) := s.framings.map .framing ++ s.outbox

/-- A flush finds no bytes, a call draws no id of a request whose response the framing task has not
received, no call gives up once its response has been delivered, and a framing is sent when fewer than
64 are unread. -/
def Clean (s : Stream κ ρ) : StreamLabel ρ → Prop
  | .call _ .lock => s.buffers s.connection = none
  | .call _ .allocate => ∀ c call id, s.master.calls c = some call → call.id = some id →
      ¬ s.Received c → id.tid ≠ s.master.nextTid
  | .call c .timeout => ∀ response, ¬ s.Delivered c response
  | .send => ∀ frame rest, s.outbox = .framing frame :: rest → s.framings.length < framingCapacity
  | _ => True

/-- An answer as a frame of the stream. -/
def frameOf (a : Nat × ApplicationDataUnit) : Bytes × Option FramedDataUnit :=
  (responseBytes a.2, some ⟨a.2, responseBytes a.2⟩)

theorem Named.isFrame {m : ModbusMaster κ ρ} {a : Nat × ApplicationDataUnit} (h : Named m a) :
    ∃ u, (frameOf a).2 = some u ∧ Tcp.IsFrame (frameOf a).1 u := by
  obtain ⟨call, id, -, -, -, htransaction, hlength⟩ := h
  have hbytes : responseBytes a.2 = Tcp.frameBytes id.tid a.2 := by
    simp only [responseBytes, Tcp.encode, htransaction]
  exact ⟨_, rfl, id.tid, htransaction, hlength, rfl, hbytes⟩

/-- What the slave may answer is a response to a request that has been sent, and to one that has not
been answered. -/
theorem Stream.named_of_mayAnswer {s : Stream κ ρ} {c : Nat} {response : ApplicationDataUnit}
    (h : s.mayAnswer c response) :
    Named s.master (c, response) ∧ c ∉ s.answered.map (·.1) := by
  unfold Stream.mayAnswer at h
  split at h
  next outgoing id phase hcall =>
    simp only [Bool.and_eq_true, Bool.not_eq_true', beq_iff_eq, decide_eq_true_eq] at h
    obtain ⟨⟨⟨hwritten, hnew⟩, htransaction⟩, hlength⟩ := h
    refine ⟨⟨_, id, hcall, rfl, ?_, htransaction, hlength⟩, ?_⟩
    · cases phase <;> trivial
    · simpa using hnew
  · cases h

theorem responseBytes_pos (response : ApplicationDataUnit) : 0 < (responseBytes response).length := by
  unfold responseBytes Tcp.encode
  split <;> exact Nat.succ_pos _

theorem map_frameOf_bytes (answers : Answers) :
    ((answers.map frameOf).map Prod.fst).flatten = answers.bytes := by
  rw [List.map_map, Answers.bytes, List.flatMap_def]
  rfl

theorem Answers.bytes_append (xs ys : Answers) :
    Answers.bytes (xs ++ ys) = Answers.bytes xs ++ Answers.bytes ys := List.flatMap_append

variable [DecidableEq κ]

/-- `handled` has reached the session, `unread` has been extracted and not been received, and the buffer
and the wire hold the rest: less than a response in the buffer. -/
structure Flows (s : Stream κ ρ) (handled unread rest : Answers) : Prop where
  answered : s.answered = handled ++ (unread ++ rest)
  received : s.received = handled.length
  extracted : s.unread.map (Emit.framedFor s.connection) = (unread.map frameOf).map Prod.snd
  faultless : s.framingErrors = []
  bytes : s.pending ++ s.wire = rest.bytes
  short : Short s.pending (rest.map frameOf)
  once : (s.answered.map (·.1)).Nodup
  serves : Serves s.master s.answered handled

/-- An emission that carries a response is its framing. -/
theorem framing_of_framedFor {k : κ} {emit : Emit κ ρ} {a : Nat × ApplicationDataUnit}
    (h : emit.framedFor k = (frameOf a).2) : ∃ frame, emit = .framing frame ∧ frame.adu = a.2 := by
  cases emit with
  | framingError e => cases h
  | framing frame =>
    refine ⟨frame, rfl, ?_⟩
    simp only [Emit.framedFor] at h
    split at h
    · exact congrArg FramedDataUnit.adu (Option.some.inj h)
    · cases h

namespace Flows

variable {s t : Stream κ ρ} {handled unread rest : Answers}

/-- Answers before what is left on the wire have been extracted. -/
theorem delivered_le (f : Flows s handled unread rest) {before after : Answers}
    (hanswered : s.answered = before ++ after) (hwire : s.wire.length ≤ after.bytes.length) :
    before.length ≤ (handled ++ unread).length := by
  rw [f.answered, ← List.append_assoc] at hanswered
  rcases List.append_eq_append_iff.mp hanswered with ⟨mid, rfl, hrest⟩ | ⟨mid, hbefore, -⟩
  · cases mid with
    | nil => exact Nat.le_of_eq (congrArg List.length (List.append_nil _))
    | cons a mid =>
      -- the first of `mid` is not whole in the buffer, so more than `after` is on the wire
      have hbytes := congrArg List.length f.bytes
      have hshort := f.short
      rw [hrest] at hbytes hshort
      have hlt : s.pending.length < (responseBytes a.2).length := hshort
      simp only [Answers.bytes, List.cons_append, List.flatMap_cons, List.flatMap_append,
        List.length_append] at hbytes hwire
      omega
  · rw [hbefore, List.length_append]
    exact Nat.le_add_right ..

/-- A response that has been delivered has been handled or is to be received. -/
theorem mem_of_delivered (f : Flows s handled unread rest) {c : Nat} {response : ApplicationDataUnit}
    (h : s.Delivered c response) : (c, response) ∈ handled ++ unread := by
  obtain ⟨before, after, hanswered, hwire⟩ := h
  have hsplit : s.answered = (before ++ [(c, response)]) ++ after := by
    rw [hanswered, List.append_assoc]
    rfl
  have hle := f.delivered_le hsplit hwire
  have hprefix : before ++ [(c, response)] <+: handled ++ unread := by
    refine List.prefix_of_prefix_length_le ⟨after, hsplit.symm⟩ ⟨rest, ?_⟩ hle
    rw [f.answered, List.append_assoc]
  exact hprefix.subset (List.mem_append_right _ List.mem_cons_self)

theorem received_iff (f : Flows s handled unread rest) (c : Nat) :
    s.Received c ↔ c ∈ handled.map (·.1) := by
  rw [Stream.Received, f.received, f.answered, List.take_left]

theorem start (k : κ) (n : Nat) : Flows (.opened k n : Stream κ ρ) [] [] [] where
  answered := rfl
  received := rfl
  extracted := rfl
  faultless := rfl
  bytes := rfl
  short := rfl
  once := List.nodup_nil
  serves := .start n

end Flows

/-- A step of a call is one of the master's, with its flush; its write does not fail. -/
theorem Stream.step_call {s t : Stream κ ρ} {c : Nat} {action : Action}
    (h : s.step (.call c action) = some t) : (∀ e, action ≠ .write (.error e)) ∧
      ∃ m, s.master.step (.call c action) = some m ∧
        t = { s with master := m, buffers := s.flushed action } := by
  have hwrite : ∀ e, action ≠ .write (.error e) := by
    rintro e rfl
    cases h
  have hstep : (s.master.step (.call c action)).map
      (fun m => { s with master := m, buffers := s.flushed action }) = some t := by
    cases action with
    | write result =>
      cases result with
      | ok => exact h
      | error e => exact absurd rfl (hwrite e)
    | _ => exact h
  obtain ⟨m, hm, heq⟩ := Option.map_eq_some_iff.mp hstep
  exact ⟨hwrite, m, hm, heq.symm⟩

/-- What a send or a receive does. -/
theorem Stream.send_cases {s t : Stream κ ρ} (h : s.step .send = some t) :
    (∃ frame rest, s.outbox = .framing frame :: rest ∧ t = { s with
      framings := pushLast framingCapacity s.framings frame, outbox := rest }) ∨
    ∃ e rest, s.outbox = .framingError e :: rest ∧ t = { s with
      framingErrors := pushLast framingCapacity s.framingErrors e, outbox := rest } := by
  rw [Stream.step] at h
  split at h
  next frame rest houtbox =>
    cases h
    exact .inl ⟨frame, rest, houtbox, rfl⟩
  next e rest houtbox =>
    cases h
    exact .inr ⟨e, rest, houtbox, rfl⟩
  · cases h

theorem Stream.receiveFraming_cases {s t : Stream κ ρ} (h : s.step .receiveFraming = some t) :
    ∃ frame rest, s.framings = frame :: rest ∧ t = { s with
      master := s.master.handleFrame frame, framings := rest, received := s.received + 1 } := by
  rw [Stream.step] at h
  split at h
  next frame rest hframings =>
    cases h
    exact ⟨frame, rest, hframings, rfl⟩
  · cases h

theorem Stream.receiveError_cases {s t : Stream κ ρ} (h : s.step .receiveError = some t) :
    ∃ e rest, s.framingErrors = e :: rest ∧
      t = { s with master := s.master.stopAll e, framingErrors := rest } := by
  rw [Stream.step] at h
  split at h
  next e rest herrors =>
    cases h
    exact ⟨e, rest, herrors, rfl⟩
  · cases h

namespace Flows

variable {s t : Stream κ ρ} {handled unread rest : Answers}

/-- A call is issued. -/
theorem issue (f : Flows s handled unread rest) {c : Nat} {outgoing : Outgoing}
    (h : s.step (.issue c outgoing) = some t) : Flows t handled unread rest := by
  obtain ⟨m, hm, rfl⟩ := Option.map_eq_some_iff.mp h
  exact { f with serves := f.serves.issue hm }

/-- A call takes a step: a flush finds nothing, and an id that is drawn is no late response's. -/
theorem call (f : Flows s handled unread rest) {c : Nat} {action : Action}
    (clean : Clean s (.call c action)) (h : s.step (.call c action) = some t) :
    Flows t handled unread rest := by
  obtain ⟨hwrite, m, hm, rfl⟩ := Stream.step_call h
  obtain ⟨call, hcall, hcallstep⟩ := Option.bind_eq_some_iff.mp hm
  have hpending : Stream.pending { s with master := m, buffers := s.flushed action } = s.pending := by
    cases action with
    | lock =>
      have hnone : s.buffers s.connection = none := clean
      show ((s.flushed .lock) s.connection).getD [] = (s.buffers s.connection).getD []
      unfold Stream.flushed
      split
      · rfl
      · rw [hnone]
        rfl
    | _ => rfl
  have hserves : Serves m s.answered handled := by
    refine f.serves.stepCall hcall hwrite ?_ hcallstep
    rintro rfl c' call' id' hcall' hid' hnot
    exact clean c' call' id' hcall' hid' (mt (f.received_iff c').mp hnot)
  exact ⟨f.answered, f.received, f.extracted, f.faultless, hpending ▸ f.bytes, hpending ▸ f.short,
    f.once, hserves⟩

/-- The slave answers. -/
theorem answer (f : Flows s handled unread rest) {c : Nat} {response : ApplicationDataUnit}
    (h : s.step (.answer c response) = some t) :
    Flows t handled unread (rest ++ [(c, response)]) := by
  rw [Stream.step] at h
  split at h
  next hmay =>
    cases h
    obtain ⟨hnamed, hnew⟩ := Stream.named_of_mayAnswer hmay
    refine ⟨?_, f.received, f.extracted, f.faultless, ?_, ?_, ?_, f.serves.answer hnamed⟩
    · rw [f.answered, List.append_assoc, List.append_assoc]
    · show s.pending ++ (s.wire ++ responseBytes response) = _
      rw [← List.append_assoc, f.bytes, Answers.bytes_append]
      exact congrArg _ (List.append_nil _).symm
    · show Short s.pending _
      cases rest with
      | nil =>
        have hempty : s.pending = [] := f.short
        rw [hempty]
        exact responseBytes_pos response
      | cons a rest => exact f.short
    · rw [List.map_append]
      refine List.nodup_append.mpr
        ⟨f.once, List.nodup_cons.mpr ⟨List.not_mem_nil, List.nodup_nil⟩, ?_⟩
      intro c' hc' c'' hc''
      rintro rfl
      obtain rfl := List.mem_singleton.mp hc''
      exact hnew hc'
  · cases h

/-- The next bytes arrive: the responses that they complete are extracted. -/
theorem deliver (f : Flows s handled unread rest) {n : Nat} {handle : ρ}
    (h : s.step (.deliver n handle) = some t) :
    ∃ next rest', rest = next ++ rest' ∧ Flows t handled (unread ++ next) rest' := by
  rw [Stream.step] at h
  split at h
  next hempty =>
    cases h
    have hframes : ∀ p ∈ rest.map frameOf, ∃ u, p.2 = some u ∧ Tcp.IsFrame p.1 u := by
      intro p hp
      obtain ⟨a, ha, rfl⟩ := List.mem_map.mp hp
      refine (f.serves.named a ?_).isFrame
      rw [f.answered]
      exact List.mem_append_right _ (List.mem_append_right _ ha)
    have hstream : s.pending ++ s.wire.take n ++ s.wire.drop n =
        ((rest.map frameOf).map Prod.fst).flatten := by
      rw [List.append_assoc, List.take_append_drop, f.bytes, map_frameOf_bytes]
    obtain ⟨done, todo, hsplit, hout, hleft, hshort⟩ :=
      Delimited.split_prefix (Tcp.delimited_extract s.connection) handle (rest.map frameOf)
        (s.pending ++ s.wire.take n) (s.wire.drop n) hframes hstream
    obtain ⟨next, rest', rfl, rfl, rfl⟩ := List.map_eq_append_iff.mp hsplit
    have hentry := Tcp.processEntry_getD (s.buffers s.connection)
      ⟨s.wire.take n, handle, s.connection⟩
    have hpending : ((Tcp.step s.buffers (.data ⟨s.wire.take n, handle, s.connection⟩)).1
        s.connection).getD [] = (Tcp.extract handle s.connection (s.pending ++ s.wire.take n)).1 := by
      refine Eq.trans ?_ (congrArg Prod.fst hentry)
      simp only [Tcp.step, Tcp.processDataEvent, Function.update_self]
    have hemits : (Tcp.step s.buffers (.data ⟨s.wire.take n, handle, s.connection⟩)).2 =
        (Tcp.extract handle s.connection (s.pending ++ s.wire.take n)).2 :=
      congrArg Prod.snd hentry
    rw [List.map_append, List.map_append, List.flatten_append, hleft, List.append_assoc,
      List.append_cancel_left_eq, map_frameOf_bytes] at hstream
    refine ⟨next, rest', rfl, ?_, f.received, ?_, f.faultless, ?_, ?_, f.once, f.serves⟩
    · rw [f.answered]
      simp only [List.append_assoc]
    · have hunread : s.unread = s.framings.map Emit.framing := by
        rw [Stream.unread, List.isEmpty_iff.mp hempty, List.append_nil]
      have hextracted := f.extracted
      rw [hunread] at hextracted
      show (s.framings.map Emit.framing ++ (Tcp.step s.buffers _).2).map _ = _
      rw [hemits, List.map_append, hextracted, List.map_append, List.map_append]
      exact congrArg _ hout
    · rw [Stream.pending, hpending]
      exact hstream
    · rw [Stream.pending, hpending]
      exact hshort
  · cases h

/-- The data task sends a framing that has room. -/
theorem send (f : Flows s handled unread rest) (clean : Clean s .send) (h : s.step .send = some t) :
    Flows t handled unread rest := by
  rcases Stream.send_cases h with ⟨frame, outbox, houtbox, rfl⟩ | ⟨e, outbox, houtbox, rfl⟩
  · refine ⟨f.answered, f.received, ?_, f.faultless, f.bytes, f.short, f.once, f.serves⟩
    have hunread : (pushLast framingCapacity s.framings frame).map Emit.framing ++ outbox =
        s.unread := by
      rw [pushLast_of_room (clean frame outbox houtbox), Stream.unread, houtbox, List.map_append,
        List.append_assoc]
      rfl
    show ((pushLast framingCapacity s.framings frame).map Emit.framing ++ outbox).map _ = _
    rw [hunread]
    exact f.extracted
  · -- the slave's responses are no framing errors
    have hmem : Emit.framedFor s.connection (.framingError e : Emit κ ρ) ∈
        s.unread.map (Emit.framedFor s.connection) := by
      refine List.mem_map_of_mem (List.mem_append_right _ ?_)
      rw [houtbox]
      exact List.mem_cons_self
    rw [f.extracted, List.map_map] at hmem
    obtain ⟨a, -, ha⟩ := List.mem_map.mp hmem
    cases ha

/-- The framing task receives the next response. -/
theorem receiveFraming (f : Flows s handled unread rest) (h : s.step .receiveFraming = some t) :
    ∃ a unread', unread = a :: unread' ∧ Flows t (handled ++ [a]) unread' rest := by
  obtain ⟨frame, framings, hframings, rfl⟩ := Stream.receiveFraming_cases h
  have hextracted := f.extracted
  rw [Stream.unread, hframings] at hextracted
  cases unread with
  | nil => cases hextracted
  | cons a unread =>
    obtain ⟨hfirst, hrest⟩ := List.cons.inj hextracted
    obtain ⟨frame', heq, hadu⟩ := framing_of_framedFor hfirst
    cases heq
    obtain ⟨c, response⟩ := a
    obtain rfl : frame.adu = response := hadu
    have hmem : (c, frame.adu) ∈ s.answered := by
      rw [f.answered]
      exact List.mem_append_right _ List.mem_cons_self
    have hnot : c ∉ handled.map (·.1) := by
      have honce := f.once
      rw [f.answered, List.map_append] at honce
      exact fun h => (List.nodup_append.mp honce).2.2 c h c List.mem_cons_self rfl
    refine ⟨_, unread, rfl, ?_, ?_, hrest, f.faultless, f.bytes, f.short, f.once,
      f.serves.handleFrame hmem hnot⟩
    · rw [f.answered, List.append_assoc]
      rfl
    · rw [List.length_append, ← f.received]
      rfl

/-- There is no framing error to receive. -/
theorem receiveError (f : Flows s handled unread rest) : s.step .receiveError = none := by
  rw [Stream.step, f.faultless]

end Flows

/-! ## Runs -/

/-- A clean step keeps the stream as it should be. -/
theorem Stream.flows_step {s t : Stream κ ρ} {label : StreamLabel ρ}
    (h : ∃ handled unread rest, Flows s handled unread rest) (clean : Clean s label)
    (hstep : s.step label = some t) : ∃ handled unread rest, Flows t handled unread rest := by
  obtain ⟨handled, unread, rest, f⟩ := h
  cases label with
  | issue c outgoing => exact ⟨_, _, _, f.issue hstep⟩
  | call c action => exact ⟨_, _, _, f.call clean hstep⟩
  | answer c response => exact ⟨_, _, _, f.answer hstep⟩
  | deliver n handle =>
    obtain ⟨next, rest', -, f'⟩ := f.deliver hstep
    exact ⟨_, _, _, f'⟩
  | send => exact ⟨_, _, _, f.send clean hstep⟩
  | receiveFraming =>
    obtain ⟨a, unread', -, f'⟩ := f.receiveFraming hstep
    exact ⟨_, _, _, f'⟩
  | receiveError =>
    rw [f.receiveError] at hstep
    cases hstep

/-- After a run whose steps are clean, the stream stands as it should. -/
theorem Stream.flows_run (k : κ) (n : Nat) {s : Stream κ ρ} {labels : List (StreamLabel ρ)}
    (run : exec Stream.step (.opened k n) labels = some s)
    (clean : Meets Stream.step Clean (.opened k n) labels) :
    ∃ handled unread rest, Flows s handled unread rest :=
  exec_invariant (fun _ _ _ h hclean hstep => Stream.flows_step h hclean hstep) run clean
    ⟨[], [], [], .start k n⟩

/-- The framing task can receive everything that has been extracted. -/
theorem Flows.drained {s : Stream κ ρ} {handled unread rest : Answers}
    (f : Flows s handled unread rest) : ∃ (labels : List (StreamLabel ρ)) (t : Stream κ ρ),
      (∀ label ∈ labels, label = .send ∨ label = .receiveFraming) ∧
        exec Stream.step s labels = some t ∧ Meets Stream.step Clean s labels ∧
        t.master.calls = s.master.calls ∧ Flows t (handled ++ unread) [] rest := by
  induction unread generalizing s handled with
  | nil =>
    refine ⟨[], s, List.forall_mem_nil _, rfl, trivial, rfl, ?_⟩
    rw [List.append_nil]
    exact f
  | cons a unread ih =>
    -- what is left after the framing task has received the first response
    have hreceive : ∀ {u : Stream κ ρ}, Flows u handled (a :: unread) rest →
        ∀ frame framings, u.framings = frame :: framings →
        ∃ (labels : List (StreamLabel ρ)) (t : Stream κ ρ),
          (∀ label ∈ labels, label = .send ∨ label = .receiveFraming) ∧
          exec Stream.step u labels = some t ∧ Meets Stream.step Clean u labels ∧
          t.master.calls = u.master.calls ∧ Flows t (handled ++ a :: unread) [] rest := by
      intro u fu frame framings hframings
      have hstep : u.step .receiveFraming = some { u with
          master := u.master.handleFrame frame, framings := framings, received := u.received + 1 } := by
        rw [Stream.step, hframings]
      obtain ⟨_, _, heq, fv⟩ := fu.receiveFraming hstep
      cases heq
      obtain ⟨labels, t, hlabels, hrun, hclean, hcalls, ft⟩ := ih fv
      refine ⟨.receiveFraming :: labels, t, List.forall_mem_cons.mpr ⟨.inr rfl, hlabels⟩, ?_,
        hclean.cons hstep trivial, hcalls.trans (u.master.handleFrame_calls frame).1, ?_⟩
      · rw [exec_cons, hstep]
        exact hrun
      · rw [List.append_assoc] at ft
        exact ft
    cases hframings : s.framings with
    | cons frame framings => exact hreceive f frame framings hframings
    | nil =>
      -- the data task sends it first
      have hextracted := f.extracted
      rw [Stream.unread, hframings] at hextracted
      obtain ⟨emit, outbox, houtbox, hfirst, -⟩ := List.map_eq_cons_iff.mp hextracted
      obtain ⟨frame, rfl, -⟩ := framing_of_framedFor hfirst
      have houtbox : s.outbox = .framing frame :: outbox := houtbox
      have hstep : s.step .send = some { s with
          framings := pushLast framingCapacity s.framings frame, outbox := outbox } := by
        rw [Stream.step, houtbox]
      have hclean : Clean s .send := by
        intro _ _ _
        rw [hframings]
        exact (show 0 < 64 by decide)
      have hroom : pushLast framingCapacity s.framings frame = [frame] := by
        rw [hframings]
        rfl
      obtain ⟨labels, t, hlabels, hrun, hmeets, hcalls, ft⟩ :=
        hreceive (f.send hclean hstep) frame [] hroom
      refine ⟨.send :: labels, t, List.forall_mem_cons.mpr ⟨.inl rfl, hlabels⟩, ?_,
        hmeets.cons hstep hclean, hcalls, ft⟩
      rw [exec_cons, hstep]
      exact hrun

/-- A reply in a slot is what its call returns, whatever comes after. -/
theorem Stream.replied_run {s t : Stream κ ρ} {labels : List (StreamLabel ρ)} {c : Nat}
    {call : Call κ ρ} {reply : Reply κ ρ} (run : exec Stream.step s labels = some t)
    (w : Waiters s.master) (h : Replied s.master c call reply) :
    Replied t.master c call reply := by
  refine (exec_invariant' (P := fun s => Replied s.master c call reply ∧ Waiters s.master)
    ?_ run ⟨h, w⟩).1
  intro s label t hs hstep
  obtain ⟨hs, ws⟩ := hs
  cases label with
  | issue c' outgoing =>
    obtain ⟨m, hm, rfl⟩ := Option.map_eq_some_iff.mp hstep
    exact ⟨hs.step ws hm nofun, ws.step hm⟩
  | call c' action =>
    obtain ⟨hwrite, m, hm, rfl⟩ := Stream.step_call hstep
    refine ⟨hs.step ws hm ?_, ws.step hm⟩
    intro e heq
    cases heq
    exact hwrite e rfl
  | answer c' response =>
    rw [Stream.step] at hstep
    split at hstep
    · cases hstep
      exact ⟨hs, ws⟩
    · cases hstep
  | deliver n handle =>
    rw [Stream.step] at hstep
    split at hstep
    · cases hstep
      exact ⟨hs, ws⟩
    · cases hstep
  | send => rcases Stream.send_cases hstep with ⟨_, _, -, rfl⟩ | ⟨_, _, -, rfl⟩ <;> exact ⟨hs, ws⟩
  | receiveFraming =>
    obtain ⟨frame, _, -, rfl⟩ := Stream.receiveFraming_cases hstep
    have hframe : s.master.step (.frame frame) = some (s.master.handleFrame frame) := rfl
    exact ⟨hs.step ws hframe nofun, ws.step hframe⟩
  | receiveError =>
    obtain ⟨e, _, -, rfl⟩ := Stream.receiveError_cases hstep
    have herror : s.master.step (.error e) = some (s.master.stopAll e) := rfl
    exact ⟨hs.step ws herror nofun, ws.step herror⟩

/-- Call `c` returns `reply`, whatever happens before it does. -/
structure Stream.Returns (s : Stream κ ρ) (c : Nat) (call : Call κ ρ) (reply : Reply κ ρ) : Prop where
  slot : s.master.slots c = .filled reply
  resolve : call.phase = .awaiting → ∃ t, s.step (.call c .resolve) = some t ∧
    t.master.calls c = some { call with phase := .done reply }
  stays : ∀ labels t, exec Stream.step s labels = some t → Replied t.master c call reply

theorem Stream.returns_of_slot {s : Stream κ ρ} {c : Nat} {call : Call κ ρ} {reply : Reply κ ρ}
    (w : Waiters s.master) (hcall : s.master.calls c = some call) (hphase : call.phase.Waiting)
    (hslot : s.master.slots c = .filled reply) : s.Returns c call reply where
  slot := hslot
  resolve hawaiting := by
    refine ⟨{ s with master := s.master.finish c call reply }, ?_, ModbusMaster.setCall_self⟩
    simp only [Stream.step, ModbusMaster.step, hcall, Option.bind_some, ModbusMaster.stepCall,
      hawaiting, hslot, Option.map_some]
    rfl
  stays _ _ run := Stream.replied_run run w ⟨call.phase, hcall, .inl ⟨hphase, hslot⟩⟩

/-! ## The awaited response -/

/-- Call `c` waits, or has returned what its checks make of `response`. -/
def Stream.Waits (s : Stream κ ρ) (c : Nat) (call : Call κ ρ) (id : Id)
    (response : ApplicationDataUnit) : Prop :=
  ∃ phase, s.master.calls c = some { call with phase := phase } ∧
    (phase.Waiting ∨ ∃ (frame : Framing κ ρ) (source : Option Nat), frame.adu = response ∧
      phase = .done ⟨call.verdict id.tid frame, source⟩)

namespace Stream

variable {s t : Stream κ ρ} {c : Nat} {call : Call κ ρ} {id : Id} {response : ApplicationDataUnit}

/-- What has been delivered stays delivered. -/
theorem delivered_step {label : StreamLabel ρ} (h : s.Delivered c response)
    (hstep : s.step label = some t) : t.Delivered c response := by
  obtain ⟨before, after, hanswered, hwire⟩ := h
  cases label with
  | issue c' outgoing =>
    obtain ⟨m, -, rfl⟩ := Option.map_eq_some_iff.mp hstep
    exact ⟨before, after, hanswered, hwire⟩
  | call c' action =>
    obtain ⟨-, m, -, rfl⟩ := step_call hstep
    exact ⟨before, after, hanswered, hwire⟩
  | answer c' response' =>
    rw [step] at hstep
    split at hstep
    · cases hstep
      refine ⟨before, after ++ [(c', response')], ?_, ?_⟩
      · rw [hanswered, List.append_assoc]
        rfl
      · rw [Answers.bytes_append, List.length_append, List.length_append]
        refine Nat.add_le_add hwire (Nat.le_of_eq ?_)
        exact congrArg List.length (List.append_nil _).symm
    · cases hstep
  | deliver n handle =>
    rw [step] at hstep
    split at hstep
    · cases hstep
      refine ⟨before, after, hanswered, Nat.le_trans ?_ hwire⟩
      rw [List.length_drop]
      exact Nat.sub_le ..
    · cases hstep
  | send =>
    rcases send_cases hstep with ⟨_, _, -, rfl⟩ | ⟨_, _, -, rfl⟩ <;>
    exact ⟨before, after, hanswered, hwire⟩
  | receiveFraming =>
    obtain ⟨_, _, -, rfl⟩ := receiveFraming_cases hstep
    exact ⟨before, after, hanswered, hwire⟩
  | receiveError =>
    obtain ⟨_, _, -, rfl⟩ := receiveError_cases hstep
    exact ⟨before, after, hanswered, hwire⟩

/-- What a waiting call's slot holds is the verdict on its response. -/
theorem slot_eq {handled unread rest : Answers} (f : Flows s handled unread rest)
    (hcall : s.master.calls c = some call) (hphase : call.phase.Waiting) (hid : call.id = some id)
    (hanswered : (c, response) ∈ s.answered) :
    s.master.slots c = .empty ∨ ∃ (frame : Framing κ ρ) (source : Option Nat),
      frame.adu = response ∧ s.master.slots c = .filled ⟨call.verdict id.tid frame, source⟩ := by
  rcases f.serves.waiting c call id hcall hphase hid with ⟨hempty, -⟩ | ⟨frame, i, hmem, hslot⟩
  · exact .inl hempty
  · -- a call is answered once
    have hadu : frame.adu = response := congrArg Prod.snd <|
      List.inj_on_of_nodup_map f.once (f.serves.given hmem) hanswered rfl
    exact .inr ⟨frame, some i, hadu, hslot⟩

/-- A clean step of a call whose response has been delivered. -/
theorem waits_call {handled unread rest : Answers} (f : Flows s handled unread rest)
    (hid : call.id = some id) (hdelivered : s.Delivered c response) (h : s.Waits c call id response)
    {action : Action} (clean : Clean s (.call c action)) (hstep : s.step (.call c action) = some t) :
    t.Waits c call id response := by
  obtain ⟨hwrite, m, hm, rfl⟩ := step_call hstep
  obtain ⟨phase, hcall, hphase | ⟨frame, source, hadu, rfl⟩⟩ := h
  · obtain ⟨call', hcall', hcallstep⟩ := Option.bind_eq_some_iff.mp hm
    cases hcall.symm.trans hcall'
    have hanswered : (c, response) ∈ s.answered := by
      obtain ⟨before, after, heq, -⟩ := hdelivered
      rw [heq]
      exact List.mem_append_right _ List.mem_cons_self
    have hslot := slot_eq f hcall hphase hid hanswered
    rcases ModbusMaster.stepCall_cases hcallstep with ⟨-, rfl, -⟩ | ⟨-, rfl, -⟩ | ⟨_, -, rfl, -⟩ |
      ⟨rfl, ⟨-, rfl⟩ | ⟨e, rfl, -⟩⟩ | ⟨rfl, -, -, -⟩ | ⟨_, _, -, rfl, -⟩ |
      ⟨-, rfl, ⟨reply, hreply, rfl⟩ | ⟨hdropped, -⟩⟩
    · exact hphase.elim
    · exact hphase.elim
    · exact hphase.elim
    · exact ⟨.awaiting, ModbusMaster.setCall_self, .inl trivial⟩
    · exact absurd rfl (hwrite e)
    · exact absurd hdelivered (clean response)
    · exact hphase.elim
    · rcases hslot with hempty | ⟨frame, source, hadu, hfilled⟩
      · cases hempty.symm.trans hreply
      · cases hfilled.symm.trans hreply
        exact ⟨_, ModbusMaster.setCall_self, .inr ⟨frame, source, hadu, rfl⟩⟩
    · rcases hslot with hempty | ⟨_, _, -, hfilled⟩
      · cases hempty.symm.trans hdropped
      · cases hfilled.symm.trans hdropped
  · obtain ⟨call', hcall', hcallstep⟩ := Option.bind_eq_some_iff.mp hm
    cases hcall.symm.trans hcall'
    rw [ModbusMaster.stepCall_done rfl] at hcallstep
    cases hcallstep

/-- **A clean step** after the delivery of the response. -/
theorem waits_step {handled unread rest : Answers} (f : Flows s handled unread rest)
    (hid : call.id = some id) (hdelivered : s.Delivered c response) (h : s.Waits c call id response)
    {label : StreamLabel ρ} (clean : Clean s label) (hstep : s.step label = some t) :
    t.Waits c call id response := by
  have hkeep : t.master.calls c = s.master.calls c → t.Waits c call id response := by
    intro hcalls
    obtain ⟨phase, hcall, hreply⟩ := h
    exact ⟨phase, hcalls.trans hcall, hreply⟩
  cases label with
  | issue c' outgoing =>
    obtain ⟨m, hm, rfl⟩ := Option.map_eq_some_iff.mp hstep
    apply hkeep
    rw [ModbusMaster.step] at hm
    split at hm
    · cases hm
    next hnew =>
      have hne : c ≠ c' := by
        rintro rfl
        obtain ⟨phase, hcall, -⟩ := h
        exact hnew (.inl (hcall ▸ rfl))
      split at hm <;>
      · cases hm
        exact ModbusMaster.setCall_of_ne hne
  | call c' action =>
    by_cases hc : c' = c
    · subst hc
      exact waits_call f hid hdelivered h clean hstep
    · obtain ⟨-, m, hm, rfl⟩ := step_call hstep
      obtain ⟨call', -, hcallstep⟩ := Option.bind_eq_some_iff.mp hm
      exact hkeep (ModbusMaster.stepCall_calls hcallstep (Ne.symm hc))
  | answer c' response' =>
    rw [step] at hstep
    split at hstep
    · cases hstep
      exact hkeep rfl
    · cases hstep
  | deliver n handle =>
    rw [step] at hstep
    split at hstep
    · cases hstep
      exact hkeep rfl
    · cases hstep
  | send => rcases send_cases hstep with ⟨_, _, -, rfl⟩ | ⟨_, _, -, rfl⟩ <;> exact hkeep rfl
  | receiveFraming =>
    obtain ⟨frame, _, -, rfl⟩ := receiveFraming_cases hstep
    exact hkeep (congrFun (s.master.handleFrame_calls frame).1 c)
  | receiveError =>
    rw [f.receiveError] at hstep
    cases hstep

end Stream

/-- **Late responses do no harm.** A FIFO master, and a slave that answers every request, at any time
and with any response under the request's id: take a run whose steps are all clean, however the stream
of responses is cut, and a waiting call whose response has been delivered. The framing task can receive
what has been extracted, and then the call returns the verdict of its checks on that response, whatever
comes after. As long as the steps stay clean, the call waits or has returned that verdict. And the
verdict is the response itself if it passes the checks. -/
theorem late_response_harmless (k : κ) (n : Nat) {s : Stream κ ρ} {labels : List (StreamLabel ρ)}
    (run : exec Stream.step (.opened k n) labels = some s)
    (clean : Meets Stream.step Clean (.opened k n) labels) {c : Nat} {call : Call κ ρ}
    {response : ApplicationDataUnit} (hcall : s.master.calls c = some call)
    (hphase : call.phase.Waiting) (hdelivered : s.Delivered c response) :
    ∃ id, call.id = some id ∧
      (∃ (more : List (StreamLabel ρ)) (t : Stream κ ρ) (frame : Framing κ ρ) (source : Option Nat),
        (∀ label ∈ more, label = .send ∨ label = .receiveFraming) ∧
        exec Stream.step s more = some t ∧ Meets Stream.step Clean s more ∧ frame.adu = response ∧
        t.Returns c call ⟨call.verdict id.tid frame, source⟩) ∧
      (∀ more t, exec Stream.step s more = some t → Meets Stream.step Clean s more →
        t.Waits c call id response) ∧
      ∀ frame : Framing κ ρ, frame.adu = response →
        runPreChecks response call.outgoing.checks = none → call.verdict id.tid frame = .ok frame := by
  obtain ⟨handled, unread, rest, f⟩ := Stream.flows_run k n run clean
  have hmem := f.mem_of_delivered hdelivered
  have hanswered : (c, response) ∈ s.answered := by
    rw [f.answered, ← List.append_assoc]
    exact List.mem_append_left _ hmem
  obtain ⟨call', id, hcall', hid, -, htransaction, -⟩ := f.serves.named _ hanswered
  cases hcall.symm.trans hcall'
  refine ⟨id, hid, ?_, ?_, ?_⟩
  · obtain ⟨more, t, hlabels, hmore, hclean, hcalls, ft⟩ := f.drained
    have hcall_t : t.master.calls c = some call := by rw [hcalls, hcall]
    rcases ft.serves.waiting c call id hcall_t hphase hid with ⟨-, -, hnot⟩ |
      ⟨frame, i, hframe, hslot⟩
    · exact absurd (List.mem_map_of_mem hmem) hnot
    · have hadu : frame.adu = response := congrArg Prod.snd <|
        List.inj_on_of_nodup_map ft.once (ft.serves.given hframe) (ft.serves.given hmem) rfl
      exact ⟨more, t, frame, some i, hlabels, hmore, hclean, hadu,
        Stream.returns_of_slot ft.serves.waiters hcall_t hphase hslot⟩
  · intro more t hmore hclean
    refine (exec_invariant (P := fun u => (∃ handled unread rest, Flows u handled unread rest) ∧
      u.Delivered c response ∧ u.Waits c call id response) ?_ hmore hclean
      ⟨⟨_, _, _, f⟩, hdelivered, call.phase, hcall, .inl hphase⟩).2.2
    intro u label v hu hlabel hstep
    obtain ⟨⟨_, _, _, fu⟩, hdelivered_u, hwaits⟩ := hu
    exact ⟨Stream.flows_step ⟨_, _, _, fu⟩ hlabel hstep, Stream.delivered_step hdelivered_u hstep,
      Stream.waits_step fu hid hdelivered_u hwaits hlabel hstep⟩
  · rintro frame rfl hpass
    rw [Call.verdict, runPreChecks, checkTid, if_pos htransaction, hpass]

/-! ## Two calls, the first one late -/

/-- A call of `read_holding_registers`, up to its write. -/
private def readOne (c : Nat) : List (StreamLabel Unit) :=
  [.issue c ⟨.new 1 3 [0, 0, 0, 1], [checkUnitFc 1 3, checkLength 3, checkByteCount 2]⟩,
    .call c .lock, .call c .allocate, .call c .arm, .call c (.write (.ok ()))]

/-- The response to the call that draws `tid`. -/
private def oneValue (tid : UInt16) (value : UInt8) : ApplicationDataUnit :=
  ⟨some tid, 1, 3, [2, 0, value]⟩

/-- The first call times out when five bytes of its response have come; `later` come before the second
call, and the rest with the response to it. -/
private def lateResponse (later : List (StreamLabel Unit)) : List (StreamLabel Unit) :=
  readOne 0 ++ [.answer 0 (oneValue 1 7), .deliver 5 (), .call 0 .timeout, .call 0 .stop] ++ later ++
    readOne 1 ++ [.answer 1 (oneValue 2 9), .deliver 22 ()]

/-- Five of the eleven bytes of a late response are flushed: the second call fails on the next six. -/
theorem flushed_part_loses_response :
    ∃ s t call, exec Stream.step (.opened () 0 : Stream Unit Unit) (lateResponse []) = some s ∧
      s.Delivered 1 (oneValue 2 9) ∧ s.master.calls 1 = some call ∧ call.phase.Waiting ∧
      runPreChecks (oneValue 2 9) call.outgoing.checks = none ∧
      exec Stream.step s [.send, .receiveError] = some t ∧
      t.master.slots 1 = .filled ⟨.error .invalidData, none⟩ ∧ t.outbox = [] ∧ t.framings = [] :=
  ⟨_, _, _, rfl, ⟨[_], [], rfl, Nat.le_refl 0⟩, rfl, trivial, rfl, rfl, rfl, rfl, rfl⟩

omit [DecidableEq κ] in
/-- The only response is not delivered while bytes of it are on the wire. -/
theorem Stream.not_delivered_of_one {s : Stream κ ρ} {c : Nat} {response : ApplicationDataUnit}
    (hone : s.answered.length = 1) (hwire : 0 < s.wire.length) : ¬ s.Delivered c response := by
  rintro ⟨before, after, hanswered, hle⟩
  rw [hanswered, List.length_append, List.length_cons] at hone
  obtain rfl : after = [] := List.length_eq_zero_iff.mp (by omega)
  exact Nat.not_lt.mpr hle hwire

/-- The rest of a late response comes before the second call, which is issued while that response is
still to be received: the second call returns its own. -/
theorem late_response_harmless_whole :
    ∃ s t call id frame source, exec Stream.step (.opened () 0 : Stream Unit Unit)
        (lateResponse [.deliver 6 (), .send]) = some s ∧
      s.framings.length = 1 ∧ s.master.calls 1 = some call ∧ call.id = some id ∧
      (∃ more, exec Stream.step s more = some t) ∧ frame.adu = oneValue 2 9 ∧
      t.Returns 1 call ⟨call.verdict id.tid frame, source⟩ ∧ call.verdict id.tid frame = .ok frame := by
  have clean : Meets Stream.step Clean (.opened () 0 : Stream Unit Unit)
      (lateResponse [.deliver 6 (), .send]) := by
    refine .cons rfl trivial <| .cons rfl rfl <| .cons rfl ?_ <| .cons rfl trivial <|
      .cons rfl trivial <| .cons rfl trivial <| .cons rfl trivial <| .cons rfl ?_ <|
      .cons rfl trivial <| .cons rfl trivial <| .cons rfl ?_ <| .cons rfl trivial <|
      .cons rfl rfl <| .cons rfl ?_ <| .cons rfl trivial <| .cons rfl trivial <|
      .cons rfl trivial <| .cons rfl trivial trivial
    · rintro (_ | _) call id hcall hid <;> cases hcall
      cases hid
    · exact fun response => Stream.not_delivered_of_one rfl (Nat.succ_pos _)
    · exact fun _ _ _ => (show 0 < 64 by decide)
    · rintro (_ | _ | _) call id hcall hid <;> cases hcall <;> cases hid
      exact fun _ => by decide
  have run : exec Stream.step (.opened () 0 : Stream Unit Unit) (lateResponse [.deliver 6 (), .send]) =
      some _ := rfl
  obtain ⟨id, hid, ⟨more, t, frame, source, -, hmore, -, hadu, hreturns⟩, -, hok⟩ :=
    late_response_harmless () 0 run clean rfl (show Phase.awaiting.Waiting from trivial)
      ⟨[_], [], rfl, Nat.le_refl 0⟩
  exact ⟨_, t, _, id, frame, source, rfl, rfl, rfl, hid, ⟨more, hmore⟩, hadu, hreturns,
    hok frame hadu rfl⟩

end RsModbus.Master
