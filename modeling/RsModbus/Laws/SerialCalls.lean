import RsModbus.Laws.Cancellation

/-!
# What decides a call without a transaction id

Over RTU and ASCII a response carries nothing that says which request it answers. `Recorder` is a master
together with what has happened on its line, in order: the requests that were written, what the session
was told, and the calls that gave up.

* `first_heard_decides`: a call that returns was decided by the first frame or error that came after its
  request was written, whatever came later and whichever calls waited beside it; unless it wrote nothing,
  was a broadcast, failed to be written, or timed out before anything came. No frame decides two calls.
* `first_heard_decides_late`: the first frame may answer an earlier request, whose call has timed out.
-/

namespace RsModbus.Master.Lifecycle

open Library
open Lifecycle.ModbusMaster

variable {κ ρ : Type}

/-! ## The line -/

/-- What happens on a line. The errors are those of framing, and the one that a close or a destroy gives
to whoever waits. -/
inductive Heard (κ ρ : Type) where
  | wrote (c : Nat) (adu : ApplicationDataUnit)
  | frame (response : Framing κ ρ)
  | error (e : ModbusError)
  | failed (c : Nat) (e : ModbusError)
  | timedOut (c : Nat)

/-- What a step from `m` to `t` adds. -/
def heard (m t : ModbusMaster κ ρ) : Label κ ρ → List (Heard κ ρ)
  | .frame frame => [.frame frame]
  | .framingError e => [.error e]
  | .closed => if m.cleanLevel = 0 then [.error masterClosed] else []
  | .destroyed => if m.cleanLevel = 2 then [] else [.error masterDestroyed]
  | .written c (.error e) => [.failed c e]
  | .timeout c => [.timedOut c]
  | _ => (t.writes.drop m.writes.length).map fun w => .wrote w.1 w.2

/-- A master and what has happened on its line. -/
structure Recorder (κ ρ : Type) where
  master : ModbusMaster κ ρ
  log : List (Heard κ ρ) := []

/-- One step of the master. -/
def Recorder.step (r : Recorder κ ρ) (label : Label κ ρ) : Option (Recorder κ ρ) :=
  (r.master.step label).map fun t => ⟨t, r.log ++ heard r.master t label⟩

/-- A frame with a transaction id, which a waiter without one is not told of. -/
def Heard.Foreign (h : Heard κ ρ) : Prop :=
  ∃ response : Framing κ ρ, h = .frame response ∧ response.adu.transaction.isSome = true

/-- What a waiter makes of what it is told. -/
def Heard.verdict (checks : List PreCheck) : Heard κ ρ → Option (Except ModbusError (Framing κ ρ))
  | .frame response =>
    if response.adu.transaction.isSome then none
    else
      match runPreChecks response.adu checks with
      | none => some (.ok response)
      | some e => some (.error e)
  | .error e => some (.error e)
  | _ => none

/-- The call whose request is written. -/
def Heard.writer : Heard κ ρ → Option Nat
  | .wrote c _ => some c
  | _ => none

/-- The request of call `c` was written, and its waiter has been told nothing since. -/
def Pending (log : List (Heard κ ρ)) (c : Nat) (adu : ApplicationDataUnit) : Prop :=
  ∃ before since, log = before ++ .wrote c adu :: since ∧ ∀ h ∈ since, h.Foreign

/-- What comes at position `n` is the first that the waiter of call `c` is told since its request was
written, and `result` is what the waiter makes of it. -/
def DecidedAt (log : List (Heard κ ρ)) (n c : Nat) (outgoing : Outgoing)
    (result : Except ModbusError (Framing κ ρ)) : Prop :=
  ∃ before since event after, log = before ++ .wrote c outgoing.request :: (since ++ event :: after) ∧
    n = before.length + 1 + since.length ∧ (∀ h ∈ since, h.Foreign) ∧
      event.verdict outgoing.checks = some result

/-- How a call comes to return what it returns. -/
inductive Explained (log : List (Heard κ ρ)) (c : Nat) (outgoing : Outgoing) : Outcome κ ρ → Prop
  | unwritten (h : ∀ adu, .wrote c adu ∉ log) : Explained log c outgoing (.error masterClosed)
  | decided {n : Nat} {result : Except ModbusError (Framing κ ρ)}
    (h : DecidedAt log n c outgoing result) : Explained log c outgoing (result.map some)
  | timedOut {before after : List (Heard κ ρ)} (h : Pending before c outgoing.request)
    (hlog : log = before ++ .timedOut c :: after) : Explained log c outgoing (.error .timeout)
  | failed {e : ModbusError} (h : .failed c e ∈ log) : Explained log c outgoing (.error e)
  | broadcast (hunit : outgoing.request.unit = 0) : Explained log c outgoing (.ok none)

/-! ## Logs -/

section Logs

variable {log extra : List (Heard κ ρ)} {n c : Nat} {outgoing : Outgoing}
  {result : Except ModbusError (Framing κ ρ)}

theorem Heard.Foreign.writer {h : Heard κ ρ} (hforeign : h.Foreign) : h.writer = none := by
  obtain ⟨response, rfl, -⟩ := hforeign
  rfl

theorem DecidedAt.append (h : DecidedAt log n c outgoing result) (extra : List (Heard κ ρ)) :
    DecidedAt (log ++ extra) n c outgoing result := by
  obtain ⟨before, since, event, after, rfl, hrest⟩ := h
  exact ⟨before, since, event, after ++ extra, by simp, hrest⟩

theorem Pending.append {adu : ApplicationDataUnit} (h : Pending log c adu)
    (hforeign : ∀ h ∈ extra, h.Foreign) : Pending (log ++ extra) c adu := by
  obtain ⟨before, since, rfl, hsince⟩ := h
  exact ⟨before, since ++ extra, by simp, List.forall_mem_append.mpr ⟨hsince, hforeign⟩⟩

/-- The waiter of a pending call is told something. -/
theorem Pending.decided (h : Pending log c outgoing.request) {event : Heard κ ρ}
    (hverdict : event.verdict outgoing.checks = some result) :
    ∃ n, DecidedAt (log ++ [event]) n c outgoing result := by
  obtain ⟨before, since, rfl, hsince⟩ := h
  exact ⟨_, before, since, event, [], by simp, rfl, hsince, hverdict⟩

theorem Explained.append {outcome : Outcome κ ρ} (h : Explained log c outgoing outcome)
    (hwriter : ∀ adu, .wrote c adu ∉ extra) : Explained (log ++ extra) c outgoing outcome := by
  cases h with
  | unwritten h =>
    exact .unwritten fun adu hmem => (List.mem_append.mp hmem).elim (h adu) (hwriter adu)
  | decided h => exact .decided (h.append extra)
  | timedOut h hlog => exact .timedOut h (by rw [hlog, List.append_assoc, List.cons_append])
  | failed h => exact .failed (List.mem_append_left _ h)
  | broadcast hunit => exact .broadcast hunit

/-- **Nothing decides two calls**: between a request and what decides its call nothing else is written. -/
theorem DecidedAt.unique {c' : Nat} {outgoing' : Outgoing} {result' : Except ModbusError (Framing κ ρ)}
    (h : DecidedAt log n c outgoing result) (h' : DecidedAt log n c' outgoing' result') : c = c' := by
  obtain ⟨before, since, event, after, rfl, rfl, hsince, -⟩ := h
  obtain ⟨before', since', event', after', hlog, hn, hsince', -⟩ := h'
  have hbegin : before ++ .wrote c outgoing.request :: since =
      before' ++ .wrote c' outgoing'.request :: since' := by
    have hsplit : (before ++ .wrote c outgoing.request :: since) ++ event :: after =
        (before' ++ .wrote c' outgoing'.request :: since') ++ event' :: after' := by
      simpa using hlog
    refine (List.append_inj hsplit ?_).1
    simp only [List.length_append, List.length_cons]
    omega
  rcases List.append_eq_append_iff.mp hbegin with ⟨rest, -, hrest⟩ | ⟨rest, -, hrest⟩
  · cases rest with
    | nil => exact (Heard.wrote.inj (List.cons.inj hrest).1).1
    | cons h rest =>
      have hmem : .wrote c' outgoing'.request ∈ since :=
        (List.cons.inj hrest).2 ▸ List.mem_append_right _ List.mem_cons_self
      cases (hsince _ hmem).writer
  · cases rest with
    | nil => exact (Heard.wrote.inj (List.cons.inj hrest).1).1.symm
    | cons h rest =>
      have hmem : .wrote c outgoing.request ∈ since' :=
        (List.cons.inj hrest).2 ▸ List.mem_append_right _ List.mem_cons_self
      cases (hsince' _ hmem).writer

end Logs

/-! ## The invariant -/

variable {m t : ModbusMaster κ ρ} {log extra : List (Heard κ ρ)} {c : Nat}

/-- What the receiver of a call that waits has, and what has happened on the line. -/
def Told (m : ModbusMaster κ ρ) (log : List (Heard κ ρ)) (c : Nat) (outgoing : Outgoing) : Prop :=
  m.receivers c = .empty ∧ Pending log c outgoing.request ∨
    ∃ n result, m.receivers c = .sent result ∧ DecidedAt log n c outgoing result

/-- A FIFO master without transaction ids and the log of its line. -/
structure Ledger (m : ModbusMaster κ ρ) (log : List (Heard κ ρ)) : Prop where
  serial : m.protocol ≠ .tcp
  fifo : m.concurrent = false
  waiters : Waiters m
  queue : Queue m
  entry : ∀ e ∈ m.session, e.1 = .fifo ∧ ∃ call, m.calls e.2.sender = some call ∧
    e.2.preCheck = call.outgoing.checks
  wrote : ∀ c adu, .wrote c adu ∈ log → ∃ call, m.calls c = some call ∧ call.phase ≠ .queued
  once : (log.filterMap Heard.writer).Nodup
  waiting : ∀ c call key, m.calls c = some call → call.phase.Waits key →
    key = .fifo ∧ Told m log c call.outgoing
  returned : ∀ c outgoing outcome, m.calls c = some ⟨outgoing, .returned outcome⟩ →
    Explained log c outgoing outcome

theorem ledger_init {protocol : ApplicationProtocol} (hserial : protocol ≠ .tcp) :
    Ledger (.new protocol false : ModbusMaster κ ρ) [] where
  serial := hserial
  fifo := rfl
  waiters := waiters_init protocol false
  queue := .init protocol false
  entry := nofun
  wrote := nofun
  once := List.nodup_nil
  waiting := nofun
  returned := nofun

namespace Ledger

/-- Only one call waits. -/
theorem alone (h : Ledger m log) {c' : Nat} {call call' : Call κ ρ} {key key' : WaiterKey}
    (hcall : m.calls c = some call) (hwaits : call.phase.Waits key)
    (hcall' : m.calls c' = some call') (hwaits' : call'.phase.Waits key') : c' = c :=
  Option.some.inj ((h.queue.owner h.fifo c' call' key' hcall' hwaits').symm.trans
    (h.queue.owner h.fifo c call key hcall hwaits))

/-- Call `c` moves to another phase, beside which no call waits, or nothing happens on the line. -/
theorem move (h : Ledger m log) (hwaiters : Waiters t) (hqueue : Queue t)
    {outgoing : Outgoing} {phase : Phase κ ρ}
    (hcalls : t.calls = Function.update m.calls c (some ⟨outgoing, phase⟩))
    (hprotocol : t.protocol = m.protocol) (hconcurrent : t.concurrent = m.concurrent)
    (hentry : ∀ e ∈ t.session, e.2.sender = c ∧ e.1 = .fifo ∧ e.2.preCheck = outgoing.checks ∨
      e ∈ m.session ∧ e.2.sender ≠ c)
    (hqueued : phase = .queued → m.calls c = none)
    (hwrote : ∀ c' adu, .wrote c' adu ∈ extra → c' = c ∧ phase ≠ .queued)
    (honce : ((log ++ extra).filterMap Heard.writer).Nodup)
    (hothers : extra = [] ∧ t.receivers = m.receivers ∨
      ∀ c' call key, m.calls c' = some call → call.phase.Waits key → c' = c)
    (hwaits : ∀ key, phase.Waits key → key = .fifo ∧ Told t (log ++ extra) c outgoing)
    (hreturned : ∀ outcome, phase = .returned outcome →
      Explained (log ++ extra) c outgoing outcome) : Ledger t (log ++ extra) where
  serial := by
    rw [hprotocol]
    exact h.serial
  fifo := by
    rw [hconcurrent]
    exact h.fifo
  waiters := hwaiters
  queue := hqueue
  entry := by
    intro e he
    rcases hentry e he with ⟨hc, hkey, hchecks⟩ | ⟨he, hc⟩
    · rw [hcalls, hc, Function.update_self]
      exact ⟨hkey, _, rfl, hchecks⟩
    · rw [hcalls, Function.update_of_ne hc]
      exact h.entry e he
  wrote := by
    intro c' adu hmem
    rw [hcalls]
    by_cases hc : c' = c
    · subst hc
      rw [Function.update_self]
      refine ⟨_, rfl, fun hphase => ?_⟩
      rcases List.mem_append.mp hmem with hmem | hmem
      · obtain ⟨call, hcall, -⟩ := h.wrote c' adu hmem
        cases (hqueued hphase).symm.trans hcall
      · exact (hwrote c' adu hmem).2 hphase
    · rw [Function.update_of_ne hc]
      exact h.wrote c' adu ((List.mem_append.mp hmem).resolve_right fun hmem =>
        hc (hwrote c' adu hmem).1)
  once := honce
  waiting := by
    intro c' call key hcall hphase
    rw [hcalls] at hcall
    by_cases hc : c' = c
    · subst hc
      cases (Function.update_self ..).symm.trans hcall
      exact hwaits key hphase
    · rw [Function.update_of_ne hc] at hcall
      rcases hothers with ⟨rfl, hreceivers⟩ | halone
      · rw [List.append_nil, Told, hreceivers]
        exact h.waiting c' call key hcall hphase
      · exact absurd (halone c' call key hcall hphase) hc
  returned := by
    intro c' outgoing' outcome hcall
    rw [hcalls] at hcall
    by_cases hc : c' = c
    · subst hc
      cases (Function.update_self ..).symm.trans hcall
      exact hreturned outcome rfl
    · rw [Function.update_of_ne hc] at hcall
      exact (h.returned c' outgoing' outcome hcall).append fun adu hmem =>
        hc (hwrote c' adu hmem).1

/-- The session is told something. -/
theorem hear (h : Ledger m log) (hwaiters : Waiters t) (hqueue : Queue t) (event : Heard κ ρ)
    (hcalls : t.calls = m.calls) (hprotocol : t.protocol = m.protocol)
    (hconcurrent : t.concurrent = m.concurrent) (hsession : ∀ e ∈ t.session, e ∈ m.session)
    (hevent : event.writer = none)
    (hempty : ∀ c call, m.calls c = some call → call.phase.Waits .fifo → m.receivers c = .empty →
      t.receivers c = .empty ∧ event.Foreign ∨
        ∃ result, t.receivers c = .sent result ∧ event.verdict call.outgoing.checks = some result)
    (hfull : ∀ c call, m.calls c = some call → call.phase.Waits .fifo → m.receivers c ≠ .empty →
      t.receivers c = m.receivers c) : Ledger t (log ++ [event]) where
  serial := by
    rw [hprotocol]
    exact h.serial
  fifo := by
    rw [hconcurrent]
    exact h.fifo
  waiters := hwaiters
  queue := hqueue
  entry := by
    rw [hcalls]
    exact fun e he => h.entry e (hsession e he)
  wrote := by
    intro c adu hmem
    rw [hcalls]
    rcases List.mem_append.mp hmem with hmem | hmem
    · exact h.wrote c adu hmem
    · rw [← List.mem_singleton.mp hmem] at hevent
      cases hevent
  once := by
    rw [List.filterMap_append, List.filterMap_cons, hevent, List.filterMap_nil, List.append_nil]
    exact h.once
  waiting := by
    intro c call key hcall hphase
    rw [hcalls] at hcall
    obtain ⟨rfl, htold⟩ := h.waiting c call key hcall hphase
    refine ⟨rfl, ?_⟩
    rcases htold with ⟨hreceiver, hpending⟩ | ⟨n, result, hreceiver, hdecided⟩
    · rcases hempty c call hcall hphase hreceiver with ⟨hreceiver, hforeign⟩ |
        ⟨result, hreceiver, hverdict⟩
      · exact .inl ⟨hreceiver, hpending.append (List.forall_mem_singleton.mpr hforeign)⟩
      · obtain ⟨n, hdecided⟩ := hpending.decided hverdict
        exact .inr ⟨n, result, hreceiver, hdecided⟩
    · have hkept := hfull c call hcall hphase (by rw [hreceiver]; nofun)
      exact .inr ⟨n, result, hkept.trans hreceiver, hdecided.append _⟩
  returned := by
    intro c outgoing outcome hcall
    rw [hcalls] at hcall
    refine (h.returned c outgoing outcome hcall).append fun adu hmem => ?_
    rw [← List.mem_singleton.mp hmem] at hevent
    cases hevent

/-- A step that changes neither calls nor receivers, of which the line shows nothing. -/
theorem congr (h : Ledger m log) (hwaiters : Waiters t) (hqueue : Queue t)
    (hcalls : t.calls = m.calls) (hprotocol : t.protocol = m.protocol)
    (hconcurrent : t.concurrent = m.concurrent) (hsession : t.session = m.session)
    (hreceivers : t.receivers = m.receivers) : Ledger t log where
  serial := hprotocol ▸ h.serial
  fifo := hconcurrent.trans h.fifo
  waiters := hwaiters
  queue := hqueue
  entry := by
    rw [hsession, hcalls]
    exact h.entry
  wrote := by
    rw [hcalls]
    exact h.wrote
  once := h.once
  waiting := by
    intro c call key hcall hphase
    rw [Told, hreceivers]
    exact h.waiting c call key (hcalls ▸ hcall) hphase
  returned := by
    rw [hcalls]
    exact h.returned

/-! ### Steps -/

section Steps

variable {outgoing : Outgoing} {phase : Phase κ ρ}

/-- A waiter is left when call `c` moves. -/
theorem entry_of_mem (h : Ledger m log) (hcall : m.calls c = some ⟨outgoing, phase⟩)
    {e : WaiterKey × WaitingState Nat} (he : e ∈ m.session) :
    e.2.sender = c ∧ e.1 = .fifo ∧ e.2.preCheck = outgoing.checks ∨
      e ∈ m.session ∧ e.2.sender ≠ c := by
  by_cases hc : e.2.sender = c
  · obtain ⟨hkey, call, hcall', hchecks⟩ := h.entry e he
    rw [hc, hcall] at hcall'
    cases hcall'
    exact .inl ⟨hc, hkey, hchecks⟩
  · exact .inr ⟨he, hc⟩

theorem unwritten (h : Ledger m log) (hqueued : ∀ call, m.calls c = some call → call.phase = .queued)
    (adu : ApplicationDataUnit) : .wrote c adu ∉ log := by
  intro hmem
  obtain ⟨call, hcall, hphase⟩ := h.wrote c adu hmem
  exact hphase (hqueued call hcall)

/-- A call that was not issued. -/
theorem fresh (h : Ledger m log) (hwaiters : Waiters t) (hqueue : Queue t) (hfresh : m.calls c = none)
    (hcalls : t.calls = Function.update m.calls c (some ⟨outgoing, phase⟩))
    (hprotocol : t.protocol = m.protocol) (hconcurrent : t.concurrent = m.concurrent)
    (hsession : t.session = m.session) (hreceivers : t.receivers = m.receivers)
    (hphase : phase = .queued ∨ phase = .returned (.error masterClosed)) : Ledger t log := by
  have hnone : ∀ call, m.calls c = some call → call.phase = .queued := fun call hcall => by
    cases hfresh.symm.trans hcall
  rw [← List.append_nil log]
  refine h.move hwaiters hqueue hcalls hprotocol hconcurrent ?_ (fun _ => hfresh) nofun ?_
    (.inl ⟨rfl, hreceivers⟩) ?_ ?_
  · intro e he
    rw [hsession] at he
    exact .inr ⟨he, h.waiters.sender_ne hnone he⟩
  · rw [List.append_nil]
    exact h.once
  · rintro key (hwaits | hwaits) <;> rcases hphase with rfl | rfl <;> cases hwaits
  · rintro outcome rfl
    rcases hphase with hphase | hphase
    · cases hphase
    · cases hphase
      rw [List.append_nil]
      exact .unwritten (h.unwritten hnone)

/-- A call ends, or moves while nothing happens on the line. -/
theorem settle (h : Ledger m log) (hwaiters : Waiters t) (hqueue : Queue t) {phase' : Phase κ ρ}
    (hcall : m.calls c = some ⟨outgoing, phase⟩)
    (hcalls : t.calls = Function.update m.calls c (some ⟨outgoing, phase'⟩))
    (hprotocol : t.protocol = m.protocol) (hconcurrent : t.concurrent = m.concurrent)
    (hsession : ∀ e ∈ t.session, e ∈ m.session) (hphase' : phase' ≠ .queued)
    (hextra : ∀ h ∈ extra, h.writer = none)
    (hothers : extra = [] ∧ t.receivers = m.receivers ∨ ∃ key, phase.Waits key)
    (hwaits : ∀ key, phase'.Waits key → key = .fifo ∧ Told t (log ++ extra) c outgoing)
    (hreturned : ∀ outcome, phase' = .returned outcome →
      Explained (log ++ extra) c outgoing outcome) : Ledger t (log ++ extra) := by
  refine h.move hwaiters hqueue hcalls hprotocol hconcurrent
    (fun e he => h.entry_of_mem hcall (hsession e he)) (fun heq => absurd heq hphase') ?_ ?_ ?_
    hwaits hreturned
  · intro c' adu hmem
    cases hextra _ hmem
  · have hnone : extra.filterMap Heard.writer = [] := List.filterMap_eq_nil_iff.mpr hextra
    rw [List.filterMap_append, hnone, List.append_nil]
    exact h.once
  · refine hothers.imp_right ?_
    rintro ⟨key, hphase⟩ c' call' key' hcall' hwaits'
    exact h.alone hcall hphase hcall' hwaits'

/-- A call ends. -/
theorem ended (h : Ledger m log) (hwaiters : Waiters t) (hqueue : Queue t) {outcome : Outcome κ ρ}
    (hcall : m.calls c = some ⟨outgoing, phase⟩)
    (hcalls : t.calls = Function.update m.calls c (some ⟨outgoing, .returned outcome⟩))
    (hprotocol : t.protocol = m.protocol) (hconcurrent : t.concurrent = m.concurrent)
    (hsession : ∀ e ∈ t.session, e ∈ m.session) (hextra : ∀ h ∈ extra, h.writer = none)
    (hothers : extra = [] ∧ t.receivers = m.receivers ∨ ∃ key, phase.Waits key)
    (hexplained : Explained (log ++ extra) c outgoing outcome) : Ledger t (log ++ extra) := by
  refine h.settle hwaiters hqueue hcall hcalls hprotocol hconcurrent hsession (fun heq => by cases heq)
    hextra hothers ?_ ?_
  · rintro key (hwaits | hwaits) <;> cases hwaits
  · rintro _ heq
    cases heq
    exact hexplained

/-- A call that has its turn writes its request. -/
theorem transmit (h : Ledger m log) (hwaiters : Waiters (m.transmit c outgoing))
    (hqueue : Queue (m.transmit c outgoing)) (hcall : m.calls c = some ⟨outgoing, .queued⟩)
    (howner : m.queueLock.owner = some c) (hlevel : m.cleanLevel = 0) :
    (m.transmit c outgoing).writes = m.writes ++ [(c, outgoing.request)] ∧
      Ledger (m.transmit c outgoing) (log ++ [.wrote c outgoing.request]) := by
  have harm : m.transmit c outgoing =
      m.arm c outgoing .fifo outgoing.checks m.nextTid outgoing.request := by
    have hopen : ¬ 1 ≤ m.cleanLevel := by omega
    have huses : ¬ usesTid m.protocol outgoing.request.unit = true := by
      simp [usesTid, h.serial]
    rw [ModbusMaster.transmit, if_neg hopen, if_neg huses]
    rfl
  have hqueued : ∀ call, m.calls c = some call → call.phase = .queued := by
    intro call hcall'
    cases hcall.symm.trans hcall'
    rfl
  have hwriting : (Phase.writing .fifo : Phase κ ρ) ≠ .queued := fun heq => by cases heq
  rw [harm] at hwaiters hqueue ⊢
  refine ⟨rfl, h.move hwaiters hqueue arm_calls rfl arm_concurrent ?_ (fun heq => absurd heq hwriting)
    ?_ ?_ ?_ ?_ fun _ heq => by cases heq⟩
  · intro e he
    rcases List.mem_append.mp he with he | he
    · obtain ⟨he, hkey⟩ := mem_stop.mp he
      exact absurd (h.entry e he).1 hkey
    · rw [List.mem_singleton.mp he]
      exact .inl ⟨rfl, rfl, rfl⟩
  · intro c' adu hmem
    cases List.mem_singleton.mp hmem
    exact ⟨rfl, hwriting⟩
  · rw [List.filterMap_append]
    refine List.nodup_append.mpr ⟨h.once, List.nodup_singleton c, ?_⟩
    rintro c' hwriter _ hc rfl
    obtain ⟨event, hmem, hwrites⟩ := List.mem_filterMap.mp hwriter
    cases List.mem_singleton.mp hc
    cases event with
    | wrote c' adu =>
      cases hwrites
      exact h.unwritten hqueued adu hmem
    | _ => cases hwrites
  · right
    intro c' call key hcall' hwaits
    exact Option.some.inj ((h.queue.owner h.fifo c' call key hcall' hwaits).symm.trans howner)
  · intro key hwaits
    obtain rfl := hwaits.key_eq (.inl rfl)
    refine ⟨rfl, .inl ⟨?_, log, [], rfl, List.forall_mem_nil _⟩⟩
    rw [arm_receivers]
    exact (h.waiters.stop .fifo).unused c hqueued

/-- The session tells the waiter without an id of a frame. -/
theorem verdict_of_route {session : MasterSession Nat} {response : Framing κ ρ} {i : Nat}
    {result : Except ModbusError (Framing κ ρ)} (h : session.route response = some (i, result))
    (hkeys : ∀ e ∈ session, e.1 = .fifo) : ∃ e ∈ session, e.2.sender = i ∧
      (Heard.frame response).verdict e.2.preCheck = some result := by
  obtain ⟨state, hget, hsent⟩ := Option.map_eq_some_iff.mp h
  obtain ⟨e, hfind, rfl⟩ := Option.map_eq_some_iff.mp hget
  have he := List.mem_of_find?_eq_some hfind
  have hkey : e.1 = .of response.adu := by
    simpa only [decide_eq_true_eq] using List.find?_some hfind
  have htransaction : response.adu.transaction = none := by
    rw [hkeys e he, WaiterKey.of] at hkey
    cases htransaction : response.adu.transaction with
    | none => rfl
    | some tid => rw [htransaction] at hkey; cases hkey
  refine ⟨e, he, ?_⟩
  cases hchecks : runPreChecks response.adu e.2.preCheck <;> rw [hchecks] at hsent <;> cases hsent <;>
    simp [Heard.verdict, htransaction, hchecks]

/-- A frame that the session has nobody for, though somebody waits, carries an id. -/
theorem foreign_of_route {session : MasterSession Nat} {response : Framing κ ρ}
    (h : session.route response = none) {e : WaiterKey × WaitingState Nat} (he : e ∈ session)
    (hkey : e.1 = .fifo) : (Heard.frame response).Foreign := by
  refine ⟨response, rfl, ?_⟩
  cases htransaction : response.adu.transaction with
  | some tid => rfl
  | none =>
    have hof : WaiterKey.of response.adu = .fifo := by rw [WaiterKey.of, htransaction]
    have hget : session.get .fifo = none := by
      rw [← hof]
      exact Option.map_eq_none_iff.mp h
    have hnone := List.find?_eq_none.mp (Option.map_eq_none_iff.mp hget) e he
    exact absurd (decide_eq_true hkey) hnone

/-- A frame reaches the session. -/
theorem route (h : Ledger m log) {response : Framing κ ρ} (hwaiters : Waiters (m.handleFrame response))
    (hqueue : Queue (m.handleFrame response)) :
    Ledger (m.handleFrame response) (log ++ [.frame response]) := by
  unfold ModbusMaster.handleFrame at hwaiters hqueue ⊢
  cases hroute : m.session.route response with
  | none =>
    refine h.hear h.waiters h.queue _ rfl rfl rfl (fun e he => he) rfl ?_ (fun _ _ _ _ _ => rfl)
    intro c call hcall hwaits hempty
    obtain ⟨e, he, hkey, -⟩ := h.waiters.armed c call .fifo hcall hwaits hempty
    exact .inl ⟨hempty, foreign_of_route hroute he hkey⟩
  | some sent =>
    obtain ⟨i, result⟩ := sent
    rw [hroute] at hwaiters hqueue
    obtain ⟨e, he, rfl, hverdict⟩ := verdict_of_route hroute fun e he => (h.entry e he).1
    refine h.hear hwaiters hqueue _ rfl rfl rfl (fun e he => (mem_stop.mp he).1) rfl ?_ ?_
    · intro c call hcall hwaits hempty
      obtain ⟨e', he', hkey', rfl⟩ := h.waiters.armed c call .fifo hcall hwaits hempty
      have hsender := h.waiters.keys e he e' he' ((h.entry e he).1.trans hkey'.symm)
      obtain ⟨-, call', hcall', hchecks⟩ := h.entry e he
      rw [hsender, hcall] at hcall'
      cases hcall'
      refine .inr ⟨result, ?_, hchecks ▸ hverdict⟩
      exact receivers_fill_of_mem (List.mem_singleton.mpr hsender.symm)
    · intro c call hcall hwaits hfull
      have hne := h.waiters.sender_ne_of_receiver hcall hwaits hfull e he
      exact receivers_fill_of_not_mem fun hmem => hne (List.mem_singleton.mp hmem).symm

/-- Everybody who waits is told of an error. -/
theorem stopAll (h : Ledger m log) (e : ModbusError) {level : Nat}
    (hwaiters : Waiters { m.stopAll e with cleanLevel := level })
    (hqueue : Queue { m.stopAll e with cleanLevel := level }) :
    Ledger { m.stopAll e with cleanLevel := level } (log ++ [.error e]) := by
  refine h.hear hwaiters hqueue _ rfl rfl rfl nofun rfl ?_ ?_
  · intro c call hcall hwaits hempty
    obtain ⟨entry, hentry, -, hsender⟩ := h.waiters.armed c call .fifo hcall hwaits hempty
    exact .inr ⟨.error e, receivers_fill_of_mem (mem_senders.mpr ⟨entry, hentry, hsender⟩), rfl⟩
  · intro c call hcall hwaits hfull
    refine receivers_fill_of_not_mem fun hmem => ?_
    obtain ⟨entry, hentry, hsender⟩ := mem_senders.mp hmem
    exact h.waiters.sender_ne_of_receiver hcall hwaits hfull entry hentry hsender

theorem closed (h : Ledger m log) : Ledger m.closed (log ++ heard m m.closed .closed) := by
  have hmoves : Moves m .closed m.closed := moves_of_step rfl
  have hwaiters := h.waiters.step hmoves
  have hqueue := h.queue.step hmoves
  by_cases hlevel : m.cleanLevel = 0
  · have hclosed : m.closed = { m.stopAll masterClosed with cleanLevel := 1 } := by
      rw [ModbusMaster.closed, ModbusMaster.clean, hlevel]
      rfl
    have hheard : heard m m.closed .closed = [.error masterClosed] := if_pos hlevel
    rw [hheard]
    rw [hclosed] at hwaiters hqueue ⊢
    exact h.stopAll _ hwaiters hqueue
  · have hclosed : m.closed = m := by
      by_cases hdestroyed : m.cleanLevel = 2
      · exact if_pos hdestroyed
      · have hone : m.cleanLevel = 1 := by
          have hmost := h.waiters.level
          omega
        rw [ModbusMaster.closed, if_neg hdestroyed, ModbusMaster.clean, if_neg hdestroyed,
          if_pos ⟨hone, rfl⟩]
    have hheard : heard m m.closed .closed = [] := if_neg hlevel
    rw [hheard, List.append_nil, hclosed]
    exact h

theorem destroyed (h : Ledger m log) :
    Ledger m.destroyed (log ++ heard m m.destroyed .destroyed) := by
  have hmoves : Moves m .destroyed m.destroyed := moves_of_step rfl
  have hwaiters := h.waiters.step hmoves
  have hqueue := h.queue.step hmoves
  by_cases hlevel : m.cleanLevel = 2
  · have hdestroyed : m.destroyed = m := if_pos hlevel
    have hheard : heard m m.destroyed .destroyed = [] := if_pos hlevel
    rw [hheard, List.append_nil, hdestroyed]
    exact h
  · have hdestroyed : m.destroyed = { m.stopAll masterDestroyed with cleanLevel := 2 } := by
      rw [ModbusMaster.destroyed, if_neg hlevel, ModbusMaster.clean, if_neg hlevel, if_neg (by omega)]
      rfl
    have hheard : heard m m.destroyed .destroyed = [.error masterDestroyed] := if_neg hlevel
    rw [hheard]
    rw [hdestroyed] at hwaiters hqueue ⊢
    exact h.stopAll _ hwaiters hqueue

/-- A step of which the line shows nothing. -/
theorem silent (m : ModbusMaster κ ρ) :
    (m.writes.drop m.writes.length).map (fun w => (.wrote w.1 w.2 : Heard κ ρ)) = [] := by
  rw [List.drop_length, List.map_nil]

/-- **Every step keeps the ledger.** -/
theorem step (h : Ledger m log) {label : Label κ ρ} (hstep : m.step label = some t) :
    Ledger t (log ++ heard m t label) := by
  have hmoves := moves_of_step hstep
  have hwaiters := h.waiters.step hmoves
  have hqueue := h.queue.step hmoves
  have hsilent : ∀ t : ModbusMaster κ ρ, Ledger t log → Ledger t (log ++
      (m.writes.drop m.writes.length).map fun w => .wrote w.1 w.2) := by
    intro t ht
    rw [silent, List.append_nil]
    exact ht
  cases hmoves with
  | rejected hfresh hlevel =>
    exact hsilent _ (h.fresh hwaiters hqueue hfresh rfl rfl rfl rfl rfl (.inr rfl))
  | queued hfresh hlevel hfifo =>
    exact hsilent _ (h.fresh hwaiters hqueue hfresh rfl rfl rfl rfl rfl (.inl rfl))
  | dispatched hfresh hlevel hconcurrent => cases h.fifo.symm.trans hconcurrent
  | @refused c outgoing hcall howner hlevel =>
    have hqueued : ∀ call, m.calls c = some call → call.phase = .queued := by
      intro call hcall'
      cases hcall.symm.trans hcall'
      rfl
    exact hsilent _ (log.append_nil ▸ h.ended hwaiters hqueue hcall rfl rfl rfl (fun _ he => he)
      (List.forall_mem_nil _) (.inl ⟨rfl, rfl⟩)
      (.append (.unwritten (h.unwritten hqueued)) fun _ => List.not_mem_nil))
  | @resumed c outgoing key checks nextTid adu hcall howner hlevel =>
    have heq : m.transmit c outgoing = m.arm c outgoing key checks nextTid adu := by
      simpa [ModbusMaster.step, hcall, howner] using hstep
    rw [← heq] at hwaiters hqueue ⊢
    obtain ⟨hwrites, hledger⟩ := h.transmit hwaiters hqueue hcall howner hlevel
    have hheard : heard m (m.transmit c outgoing) (.resume c) = [.wrote c outgoing.request] := by
      show List.map _ (List.drop m.writes.length (m.transmit c outgoing).writes) = _
      rw [hwrites, List.drop_left]
      rfl
    rw [hheard]
    exact hledger
  | @failed c outgoing key e hcall =>
    exact h.ended hwaiters hqueue hcall rfl rfl rfl (fun e he => (mem_stop.mp he).1)
      (List.forall_mem_singleton.mpr rfl) (.inr ⟨key, .inl rfl⟩)
      (.failed (List.mem_append_right _ (List.mem_singleton_self _)))
  | @broadcast c outgoing key hcall hunit =>
    exact hsilent _ (log.append_nil ▸ h.ended hwaiters hqueue hcall rfl rfl rfl
      (fun e he => (mem_stop.mp he).1) (List.forall_mem_nil _) (.inr ⟨key, .inl rfl⟩) (.broadcast hunit))
  | @awaits c outgoing key hcall hunit =>
    refine hsilent _ (log.append_nil ▸ h.settle hwaiters hqueue hcall rfl rfl rfl (fun _ he => he)
      (fun heq => by cases heq) (List.forall_mem_nil _) (.inl ⟨rfl, rfl⟩) ?_ fun _ heq => by cases heq)
    intro key' hwaits
    obtain rfl := hwaits.key_eq (.inr rfl)
    rw [List.append_nil]
    exact h.waiting c _ key' hcall (.inl rfl)
  | @answered c outgoing key result hcall hreceiver =>
    obtain ⟨-, ⟨hempty, -⟩ | ⟨n, result', hsent, hdecided⟩⟩ := h.waiting c _ key hcall (.inr rfl)
    · cases hreceiver.symm.trans hempty
    · cases hreceiver.symm.trans hsent
      exact hsilent _ (log.append_nil ▸ h.ended hwaiters hqueue hcall rfl rfl rfl (fun _ he => he)
        (List.forall_mem_nil _) (.inl ⟨rfl, rfl⟩) (.append (.decided hdecided) fun _ => List.not_mem_nil))
  | @cleared c outgoing key hcall hreceiver =>
    obtain ⟨-, ⟨hempty, -⟩ | ⟨n, result', hsent, -⟩⟩ := h.waiting c _ key hcall (.inr rfl)
    · cases hreceiver.symm.trans hempty
    · cases hreceiver.symm.trans hsent
  | @expired c outgoing key hcall hreceiver =>
    obtain ⟨-, ⟨-, hpending⟩ | ⟨n, result', hsent, -⟩⟩ := h.waiting c _ key hcall (.inr rfl)
    · exact h.ended hwaiters hqueue hcall rfl rfl rfl (fun e he => (mem_stop.mp he).1)
        (List.forall_mem_singleton.mpr rfl) (.inr ⟨key, .inr rfl⟩) (.timedOut hpending rfl)
    · cases hreceiver.symm.trans hsent
  | @abandoned c outgoing phase hcall hlive =>
    refine hsilent _ (log.append_nil ▸ h.settle hwaiters hqueue hcall rfl rfl rfl (fun _ he => he)
      (fun heq => by cases heq) (List.forall_mem_nil _) (.inl ⟨rfl, rfl⟩) ?_ fun _ heq => by cases heq)
    rintro key (hwaits | hwaits) <;> cases hwaits
  | routed => exact h.route hwaiters hqueue
  | errored => exact h.stopAll _ hwaiters hqueue
  | reopened hlevel => exact hsilent _ (h.congr hwaiters hqueue rfl rfl rfl rfl rfl)
  | cleaned hlevel hmost hlabel =>
    rcases hlabel with rfl | rfl
    · exact Option.some.inj hstep ▸ h.closed
    · exact Option.some.inj hstep ▸ h.destroyed
  | idle hlevel hlabel =>
    rcases hlabel with rfl | rfl | ⟨physical, rfl, -⟩
    · have hclosed := h.closed
      rwa [(Option.some.inj hstep : m.closed = m)] at hclosed
    · have hdestroyed := h.destroyed
      rwa [(Option.some.inj hstep : m.destroyed = m)] at hdestroyed
    · exact hsilent _ h

end Steps

end Ledger

/-! ## Runs -/

/-- **The first that is heard decides.** On a FIFO master of RTU or ASCII, whatever is called, dropped,
closed and opened, written or not, and whatever comes: a call that returns wrote nothing because the master
was closed; or returns what its waiter made of the first frame or error that came after its request was
written, whatever came later; or timed out before anything came; or its write failed; or it was a
broadcast. No request is written twice, and no frame or error decides two calls. -/
theorem first_heard_decides {protocol : ApplicationProtocol} (hserial : protocol ≠ .tcp)
    {labels : List (Label κ ρ)} {r : Recorder κ ρ}
    (run : exec Recorder.step ⟨.new protocol false, []⟩ labels = some r) :
    (∀ c outgoing outcome, r.master.calls c = some ⟨outgoing, .returned outcome⟩ →
      Explained r.log c outgoing outcome) ∧
    (r.log.filterMap Heard.writer).Nodup ∧
    ∀ n c c' outgoing outgoing' result result', DecidedAt r.log n c outgoing result →
      DecidedAt r.log n c' outgoing' result' → c = c' := by
  have hkeep : ∀ (r : Recorder κ ρ) label s, Ledger r.master r.log → r.step label = some s →
      Ledger s.master s.log := by
    intro r label s h hstep
    obtain ⟨t, ht, rfl⟩ := Option.map_eq_some_iff.mp hstep
    exact h.step ht
  have hledger : Ledger r.master r.log := exec_invariant' hkeep run (ledger_init hserial)
  exact ⟨hledger.returned, hledger.once, fun _ _ _ _ _ _ _ h h' => h.unique h'⟩

/-- The response to the first request comes when its call has timed out; the second call returns it. -/
def lateResponse : List (Label Nat Unit) :=
  [.issue 0 readOne, .resume 0, .written 0 (.ok ()), .timeout 0, .issue 1 readOne, .resume 1,
    .written 1 (.ok ()), .frame (readReply none), .resolve 1]

theorem first_heard_decides_late : ∃ r : Recorder Nat Unit,
    exec Recorder.step ⟨.new .rtu false, []⟩ lateResponse = some r ∧
      r.master.calls 0 = some ⟨readOne, .returned (.error .timeout)⟩ ∧
      r.master.calls 1 = some ⟨readOne, .returned (.ok (some (readReply none)))⟩ ∧
      Explained r.log 1 readOne (.ok (some (readReply none))) := by
  refine ⟨_, rfl, rfl, rfl, ?_⟩
  have hserial : ApplicationProtocol.rtu ≠ .tcp := by decide
  exact (first_heard_decides hserial (show exec Recorder.step ⟨.new .rtu false, []⟩ lateResponse =
    some _ from rfl)).1 1 readOne _ rfl

end RsModbus.Master.Lifecycle
