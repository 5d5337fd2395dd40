import RsModbus.Laws.MasterPanics
import RsModbus.Master.Machine

/-!
# Calls of a TCP master

* `Master.calls_isolated`: while fewer than 65535 ids are drawn during a call, outstanding calls have
  different ids, a call gets only a frame that carries its id and passes its checks, a frame completes
  one call at most, and a frame with another id changes nothing.

`Ids` ties the counter to the calls: the id of a call is a function of the number of ids drawn before
it, with period 65535, and an outstanding call drew one of the last 65535. `Waiters` ties the session
to the calls: a waiter belongs to a call that armed it under its own id, and its slot is empty.
-/

namespace RsModbus.Master

open Library

variable {κ ρ : Type}

/-! ## Outstanding calls -/

/-- The id of a call that is not done. -/
def Call.outstanding (call : Call κ ρ) : Option Id :=
  match call.phase with
  | .done _ => none
  | _ => call.id

/-- The call has armed its waiter. -/
def Phase.Armed : Phase κ ρ → Prop
  | .armed => True
  | .awaiting => True
  | .failed _ => True
  | _ => False

/-- The call has armed its waiter, or is done. -/
def Phase.Started : Phase κ ρ → Prop
  | .done _ => True
  | phase => phase.Armed

/-- The call has no id yet. -/
def Phase.Early : Phase κ ρ → Prop
  | .queued => True
  | .locked => True
  | _ => False

theorem Phase.Armed.started {phase : Phase κ ρ} (h : phase.Armed) : phase.Started := by
  cases phase <;> first | exact h | trivial

/-- The id drawn after `n` others. -/
def tidAt (start n : Nat) : UInt16 := UInt16.ofNat ((start + n) % 65535 + 1)

theorem toNat_tidAt (start n : Nat) : (tidAt start n).toNat = (start + n) % 65535 + 1 :=
  UInt16.toNat_ofNat_of_lt' (show (start + n) % 65535 + 1 < 65536 by omega)

/-- Drawing follows the cycle. -/
theorem allocateTid_tidAt (start n : Nat) :
    (ModbusMaster.allocateTid (tidAt start n)).2 = tidAt start (n + 1) := by
  have hnow := toNat_tidAt start n
  have hnext := toNat_tidAt start (n + 1)
  apply UInt16.toNat_inj.mp
  by_cases hwrap : tidAt start n = 65535
  · have hlast : (tidAt start n).toNat = 65535 := congrArg UInt16.toNat hwrap
    rw [ModbusMaster.allocateTid, if_pos hwrap, hnext]
    show 1 = _
    omega
  · have hlt : (tidAt start n).toNat ≠ 65535 := fun h => hwrap (UInt16.toNat_inj.mp h)
    rw [ModbusMaster.allocateTid, if_neg hwrap, hnext, UInt16.toNat_add]
    show ((tidAt start n).toNat + 1) % 65536 = _
    omega

/-- Two ids drawn within 65535 of each other are different. -/
theorem tidAt_inj {start n n' last : Nat} (hn : n < last) (hn' : n' < last)
    (hwindow : last ≤ n + 65535) (hwindow' : last ≤ n' + 65535)
    (h : tidAt start n = tidAt start n') : n = n' := by
  have heq := congrArg UInt16.toNat h
  rw [toNat_tidAt, toNat_tidAt] at heq
  omega

/-- A master that has just been opened, with `1 + start % 65535` as the next id. -/
def ModbusMaster.opened (concurrent : Bool) (start : Nat) : ModbusMaster κ ρ where
  concurrent := concurrent
  nextTid := tidAt start 0

/-- A call that draws an id finds, since the id of each outstanding call, fewer than 65535 drawn. -/
def FewDrawn (m : ModbusMaster κ ρ) : Label κ ρ → Prop
  | .call _ .allocate => ∀ c call id, m.calls c = some call → call.outstanding = some id →
      m.drawn < id.index + 65535
  | _ => True

/-! ## What a step does -/

namespace ModbusMaster

variable {m t : ModbusMaster κ ρ} {c : Nat} {call : Call κ ρ}

/-- What a step of a call can do. -/
theorem stepCall_cases {a : Action} (h : m.stepCall c call a = some t) :
    (a = .lock ∧ call.phase = .queued ∧ (m.concurrent ∨ m.queueLock = none) ∧
      ((m.closed ∧ t = m.finish c call masterClosed) ∨
        (¬ m.closed ∧ t = { m.setCall c { call with phase := .locked } with
          queueLock := if m.concurrent then m.queueLock else some c }))) ∨
    (a = .allocate ∧ call.phase = .locked ∧
      t = { m.setCall c { call with id := some ⟨m.nextTid, m.drawn⟩, phase := .allocated } with
        nextTid := (allocateTid m.nextTid).2, drawn := m.drawn + 1 }) ∨
    (∃ id, a = .arm ∧ call.phase = .allocated ∧ call.id = some id ∧
      t = { (m.dropWaiter (.tid id.tid)).setCall c { call with phase := .armed } with
        session := m.session.start (.tid id.tid) (checkTid id.tid :: call.outgoing.checks) c }) ∨
    (call.phase = .armed ∧ ((a = .write (.ok ()) ∧ t = m.setCall c { call with phase := .awaiting }) ∨
      ∃ e, a = .write (.error e) ∧ t = m.setCall c { call with phase := .failed e })) ∨
    (a = .timeout ∧ call.phase = .awaiting ∧ m.slots c = .empty ∧
      t = m.setCall c { call with phase := .failed .timeout }) ∨
    (∃ e id, a = .stop ∧ call.phase = .failed e ∧ call.id = some id ∧
      t = (m.dropWaiter (.tid id.tid)).finish c call ⟨.error e, none⟩) ∨
    (a = .resolve ∧ call.phase = .awaiting ∧
      ((∃ reply, m.slots c = .filled reply ∧ t = m.finish c call reply) ∨
        (m.slots c = .dropped ∧ t = m.finish c call sessionCleared))) := by
  cases a with
  | lock =>
    simp only [stepCall] at h
    split at h
    next hphase =>
      split at h
      · cases h
      next hfree =>
        have hlock : m.concurrent ∨ m.queueLock = none := by
          by_contra hheld
          rw [not_or] at hheld
          exact hfree ⟨hheld.1, Option.isSome_iff_ne_none.mpr hheld.2⟩
        split at h
        next hclosed =>
          cases h
          exact .inl ⟨rfl, hphase, hlock, .inl ⟨hclosed, rfl⟩⟩
        next hopen =>
          cases h
          exact .inl ⟨rfl, hphase, hlock, .inr ⟨hopen, rfl⟩⟩
    · cases h
  | allocate =>
    simp only [stepCall] at h
    split at h
    next hphase =>
      cases h
      exact .inr (.inl ⟨rfl, hphase, rfl⟩)
    · cases h
  | arm =>
    simp only [stepCall] at h
    split at h
    next id hphase hid =>
      cases h
      exact .inr (.inr (.inl ⟨id, rfl, hphase, hid, rfl⟩))
    · cases h
  | write result =>
    simp only [stepCall] at h
    split at h
    next hphase =>
      cases h
      exact .inr (.inr (.inr (.inl ⟨hphase, .inl ⟨rfl, rfl⟩⟩)))
    next e hphase =>
      cases h
      exact .inr (.inr (.inr (.inl ⟨hphase, .inr ⟨e, rfl, rfl⟩⟩)))
    · cases h
  | timeout =>
    simp only [stepCall] at h
    split at h
    next hphase hslot =>
      cases h
      exact .inr (.inr (.inr (.inr (.inl ⟨rfl, hphase, hslot, rfl⟩))))
    · cases h
  | stop =>
    simp only [stepCall] at h
    split at h
    next e id hphase hid =>
      cases h
      exact .inr (.inr (.inr (.inr (.inr (.inl ⟨e, id, rfl, hphase, hid, rfl⟩)))))
    · cases h
  | resolve =>
    simp only [stepCall] at h
    split at h
    next reply hphase hslot =>
      cases h
      exact .inr (.inr (.inr (.inr (.inr (.inr ⟨rfl, hphase, .inl ⟨reply, hslot, rfl⟩⟩)))))
    next hphase hslot =>
      cases h
      exact .inr (.inr (.inr (.inr (.inr (.inr ⟨rfl, hphase, .inr ⟨hslot, rfl⟩⟩)))))
    · cases h

/-! ## Calls that are set -/

theorem setCall_self : (m.setCall c call).calls c = some call := Function.update_self ..

theorem setCall_of_ne {c' : Nat} (h : c' ≠ c) : (m.setCall c call).calls c' = m.calls c' :=
  Function.update_of_ne h ..

/-- Setting a new call leaves the others. -/
theorem setCall_of_fresh {c' : Nat} {call' : Call κ ρ} (hfresh : m.calls c = none)
    (h : m.calls c' = some call') : (m.setCall c call).calls c' = some call' := by
  refine (setCall_of_ne ?_).trans h
  rintro rfl
  rw [hfresh] at h
  cases h

/-- A call of a state in which a call was set is that call or an old one. -/
theorem setCall_cases {c' : Nat} {call' : Call κ ρ}
    (h : (m.setCall c call).calls c' = some call') :
    c' = c ∧ call' = call ∨ c' ≠ c ∧ m.calls c' = some call' := by
  by_cases hc : c' = c
  · subst hc
    rw [setCall_self] at h
    exact .inl ⟨rfl, (Option.some.inj h).symm⟩
  · rw [setCall_of_ne hc] at h
    exact .inr ⟨hc, h⟩

end ModbusMaster

theorem Call.outstanding_eq {call : Call κ ρ} {id : Id} (h : call.outstanding = some id) :
    call.id = some id := by
  unfold Call.outstanding at h
  split at h
  · cases h
  · exact h

/-- A call that is not done stays as outstanding as it was, or is done. -/
theorem Call.outstanding_set (call : Call κ ρ) (phase : Phase κ ρ)
    (h : ∀ reply, call.phase ≠ .done reply) :
    Call.outstanding { call with phase := phase } = none ∨
      Call.outstanding { call with phase := phase } = call.outstanding := by
  have hid : call.outstanding = call.id := by
    unfold Call.outstanding
    split
    next reply hdone => exact absurd hdone (h reply)
    · rfl
  rw [hid]
  cases phase with
  | done reply => exact .inl rfl
  | _ => exact .inr rfl

/-! ## The counter and the calls -/

/-- The id of a call is the one drawn at its index, and an outstanding call drew one of the last
65535. -/
structure Ids (start : Nat) (m : ModbusMaster κ ρ) : Prop where
  next : m.nextTid = tidAt start m.drawn
  drawn : ∀ c call id, m.calls c = some call → call.id = some id →
    id.tid = tidAt start id.index ∧ id.index < m.drawn
  inj : ∀ c c' call call' id id', m.calls c = some call → m.calls c' = some call' →
    call.id = some id → call'.id = some id' → id.index = id'.index → c = c'
  recent : ∀ c call id, m.calls c = some call → call.outstanding = some id →
    m.drawn ≤ id.index + 65535

namespace Ids

variable {start : Nat} {m t : ModbusMaster κ ρ}

theorem opened (concurrent : Bool) : Ids start (.opened concurrent start : ModbusMaster κ ρ) where
  next := rfl
  drawn _ _ _ h := nomatch h
  inj _ _ _ _ _ _ h := nomatch h
  recent _ _ _ h := nomatch h

/-- A step that draws no id, and in which every call is new and has no id, or keeps its id and does
not become outstanding again. -/
theorem keep (ids : Ids start m) (hnext : t.nextTid = m.nextTid) (hdrawn : t.drawn = m.drawn)
    (hcalls : ∀ c call', t.calls c = some call' → call'.id = none ∨
      ∃ call, m.calls c = some call ∧ call'.id = call.id ∧
        (call'.outstanding = none ∨ call'.outstanding = call.outstanding)) : Ids start t where
  next := by rw [hnext, hdrawn, ids.next]
  drawn c call' id hcall' hid := by
    rcases hcalls c call' hcall' with hnone | ⟨call, hcall, hsame, -⟩
    · rw [hnone] at hid
      cases hid
    · rw [hdrawn]
      exact ids.drawn c call id hcall (hsame ▸ hid)
  inj c c' call' call'' id id' hcall' hcall'' hid hid' hindex := by
    rcases hcalls c call' hcall' with hnone | ⟨call, hcall, hsame, -⟩
    · rw [hnone] at hid
      cases hid
    rcases hcalls c' call'' hcall'' with hnone | ⟨callₒ, hcallₒ, hsame', -⟩
    · rw [hnone] at hid'
      cases hid'
    exact ids.inj c c' call callₒ id id' hcall hcallₒ (hsame ▸ hid) (hsame' ▸ hid') hindex
  recent c call' id hcall' hout := by
    rcases hcalls c call' hcall' with hnone | ⟨call, hcall, -, hless | hsame⟩
    · rw [Call.outstanding_eq hout] at hnone
      cases hnone
    · rw [hless] at hout
      cases hout
    · rw [hdrawn]
      exact ids.recent c call id hcall (hsame ▸ hout)

/-- A step that moves one call on. -/
theorem move (ids : Ids start m) {c : Nat} {call : Call κ ρ} {phase : Phase κ ρ}
    (hcall : m.calls c = some call) (hnext : t.nextTid = m.nextTid) (hdrawn : t.drawn = m.drawn)
    (hcalls : t.calls = (m.setCall c { call with phase := phase }).calls)
    (hlive : ∀ reply, call.phase ≠ .done reply) : Ids start t := by
  refine ids.keep hnext hdrawn ?_
  intro c' call₁ h
  rw [hcalls] at h
  rcases ModbusMaster.setCall_cases h with ⟨rfl, rfl⟩ | ⟨-, hold⟩
  · exact .inr ⟨call, hcall, rfl, call.outstanding_set phase hlive⟩
  · exact .inr ⟨call₁, hold, rfl, .inr rfl⟩

/-- The call that draws an id gets the next one. -/
theorem allocate (ids : Ids start m) {c : Nat} {call : Call κ ρ} (few : ∀ c call id,
      m.calls c = some call → call.outstanding = some id → m.drawn < id.index + 65535) :
    Ids start { m.setCall c { call with id := some ⟨m.nextTid, m.drawn⟩, phase := .allocated } with
      nextTid := (ModbusMaster.allocateTid m.nextTid).2, drawn := m.drawn + 1 } where
  next := by
    rw [ids.next]
    exact allocateTid_tidAt start m.drawn
  drawn c' call' id hcall' hid := by
    rcases ModbusMaster.setCall_cases hcall' with ⟨rfl, rfl⟩ | ⟨-, hold⟩
    · obtain rfl := Option.some.inj hid
      exact ⟨ids.next, Nat.lt_succ_self _⟩
    · obtain ⟨htid, hlt⟩ := ids.drawn c' call' id hold hid
      exact ⟨htid, Nat.lt_succ_of_lt hlt⟩
  inj c₁ c₂ call₁ call₂ id₁ id₂ h₁ h₂ hid₁ hid₂ hindex := by
    rcases ModbusMaster.setCall_cases h₁ with ⟨rfl, rfl⟩ | ⟨-, hold₁⟩
    · rcases ModbusMaster.setCall_cases h₂ with ⟨rfl, rfl⟩ | ⟨-, hold₂⟩
      · rfl
      · obtain rfl := Option.some.inj hid₁
        exact absurd hindex.symm (Nat.ne_of_lt (ids.drawn c₂ call₂ id₂ hold₂ hid₂).2)
    · rcases ModbusMaster.setCall_cases h₂ with ⟨rfl, rfl⟩ | ⟨-, hold₂⟩
      · obtain rfl := Option.some.inj hid₂
        exact absurd hindex (Nat.ne_of_lt (ids.drawn c₁ call₁ id₁ hold₁ hid₁).2)
      · exact ids.inj c₁ c₂ call₁ call₂ id₁ id₂ hold₁ hold₂ hid₁ hid₂ hindex
  recent c' call' id hcall' hout := by
    show m.drawn + 1 ≤ id.index + 65535
    rcases ModbusMaster.setCall_cases hcall' with ⟨rfl, rfl⟩ | ⟨-, hold⟩
    · obtain rfl := Option.some.inj hout
      show m.drawn + 1 ≤ m.drawn + 65535
      omega
    · exact few c' call' id hold hout

/-- Calls that have ids share one only when they are one call. -/
theorem tid_inj (ids : Ids start m) {c c' : Nat} {call call' : Call κ ρ} {id id' : Id}
    (hcall : m.calls c = some call) (hcall' : m.calls c' = some call')
    (hout : call.outstanding = some id) (hout' : call'.outstanding = some id')
    (htid : id.tid = id'.tid) : c = c' := by
  have hid := Call.outstanding_eq hout
  have hid' := Call.outstanding_eq hout'
  obtain ⟨heq, hlt⟩ := ids.drawn c call id hcall hid
  obtain ⟨heq', hlt'⟩ := ids.drawn c' call' id' hcall' hid'
  rw [heq, heq'] at htid
  exact ids.inj c c' call call' id id' hcall hcall' hid hid' (tidAt_inj hlt hlt'
    (ids.recent c call id hcall hout) (ids.recent c' call' id' hcall' hout') htid)

end Ids

/-! ## The session and the calls -/

/-- What a call with transaction id `tid` gets for a frame. -/
def Call.verdict (call : Call κ ρ) (tid : UInt16) (frame : Framing κ ρ) :
    Except ModbusError (Framing κ ρ) :=
  match runPreChecks frame.adu (checkTid tid :: call.outgoing.checks) with
  | none => .ok frame
  | some e => .error e

/-- The reply to call `c` is an error that no frame caused, or the verdict on a frame that arrived. -/
def Earned (m : ModbusMaster κ ρ) (c : Nat) (reply : Reply κ ρ) : Prop :=
  (∃ e, reply = ⟨.error e, none⟩) ∨
    ∃ call id i frame, m.calls c = some call ∧ call.id = some id ∧ m.arrived[i]? = some frame ∧
      reply = ⟨call.verdict id.tid frame, some i⟩

/-- An entry of the session is the waiter of a call that has armed it, under the call's own id and
with its checks, and the call's slot is empty. -/
def Waits (m : ModbusMaster κ ρ) (e : WaiterKey × WaitingState Nat) : Prop :=
  ∃ call id, m.calls e.2.sender = some call ∧ call.id = some id ∧ e.1 = .tid id.tid ∧
    call.phase.Armed ∧ e.2.preCheck = checkTid id.tid :: call.outgoing.checks ∧
    m.slots e.2.sender = .empty

/-- The session, the slots and the calls agree. -/
structure Waiters (m : ModbusMaster κ ρ) : Prop where
  early : ∀ c call, m.calls c = some call → call.phase.Early → call.id = none
  waits : ∀ e ∈ m.session, Waits m e
  started : ∀ c, m.slots c ≠ .empty → ∃ call, m.calls c = some call ∧ call.phase.Started
  earned : ∀ c reply, m.slots c = .filled reply → Earned m c reply
  once : ∀ c c' r r' i, m.slots c = .filled r → m.slots c' = .filled r' → r.source = some i →
    r'.source = some i → c = c'
  done : ∀ c call reply, m.calls c = some call → call.phase = .done reply →
    (∃ e, reply = ⟨.error e, none⟩) ∨ m.slots c = .filled reply

/-- Arrivals add no reply and take none back. -/
theorem Earned.mono {m t : ModbusMaster κ ρ} {c : Nat} {reply : Reply κ ρ}
    (h : Earned m c reply) (hcalls : ∀ call, m.calls c = some call → ∃ call', t.calls c = some call' ∧
      call'.outgoing = call.outgoing ∧ (call.id.isSome → call'.id = call.id))
    (harrived : m.arrived <+: t.arrived) : Earned t c reply := by
  rcases h with herror | ⟨call, id, i, frame, hcall, hid, hframe, hreply⟩
  · exact .inl herror
  · obtain ⟨call', hcall', houtgoing, hsame⟩ := hcalls call hcall
    refine .inr ⟨call', id, i, frame, hcall', ?_, ?_, ?_⟩
    · rw [hsame (by rw [hid]; rfl), hid]
    · obtain ⟨rest, hrest⟩ := harrived
      rw [← hrest, List.getElem?_append_left (List.getElem?_eq_some_iff.mp hframe).1, hframe]
    · rw [hreply, Call.verdict, Call.verdict, houtgoing]

namespace Waiters

variable {m t : ModbusMaster κ ρ} {c : Nat} {call : Call κ ρ}

theorem opened (concurrent : Bool) (start : Nat) :
    Waiters (.opened concurrent start : ModbusMaster κ ρ) where
  early _ _ h := nomatch h
  waits _ h := nomatch h
  started _ h := absurd rfl h
  earned _ _ h := nomatch h
  once _ _ _ _ _ h := nomatch h
  done _ _ _ h := nomatch h

/-- The agreement is about calls, session, slots and arrivals. -/
theorem congr (w : Waiters m) (hcalls : t.calls = m.calls) (hsession : t.session = m.session)
    (hslots : t.slots = m.slots) (harrived : t.arrived = m.arrived) : Waiters t := by
  obtain ⟨concurrent, closed, nextTid, drawn, queueLock, session, calls, slots, arrived⟩ := t
  dsimp only at hcalls hsession hslots harrived
  subst hcalls hsession hslots harrived
  exact ⟨w.early, w.waits, w.started, w.earned, w.once, w.done⟩

/-- A call that has not started has an empty slot. -/
theorem slot_empty (w : Waiters m) (hcall : m.calls c = some call) (hphase : ¬ call.phase.Started) :
    m.slots c = .empty := by
  by_contra hslot
  obtain ⟨call', hcall', hstarted⟩ := w.started c hslot
  rw [hcall] at hcall'
  exact hphase (Option.some.inj hcall' ▸ hstarted)

/-- A call that has not armed a waiter has none. -/
theorem sender_ne (w : Waiters m) (hcall : m.calls c = some call) (hphase : ¬ call.phase.Armed)
    {e : WaiterKey × WaitingState Nat} (he : e ∈ m.session) : e.2.sender ≠ c := by
  rintro rfl
  obtain ⟨call', id, hcall', -, -, harmed, -⟩ := w.waits e he
  rw [hcall] at hcall'
  exact hphase (Option.some.inj hcall' ▸ harmed)

/-- A call moves on: it keeps its request, its id if it has one, and its waiter if it has one. -/
theorem setCall (w : Waiters m) (call' : Call κ ρ) (hcall : m.calls c = some call)
    (houtgoing : call'.outgoing = call.outgoing) (hid : call.id.isSome → call'.id = call.id)
    (harmed : call'.phase.Armed ∨ ∀ e ∈ m.session, e.2.sender ≠ c)
    (hearly : call'.phase.Early → call'.id = none)
    (hstarted : call.phase.Started → call'.phase.Started)
    (hdone : ∀ reply, call'.phase = .done reply →
      (∃ e, reply = ⟨.error e, none⟩) ∨ m.slots c = .filled reply) :
    Waiters (m.setCall c call') where
  early c' call₁ hcall₁ hphase := by
    rcases ModbusMaster.setCall_cases hcall₁ with ⟨rfl, rfl⟩ | ⟨-, hold⟩
    · exact hearly hphase
    · exact w.early c' call₁ hold hphase
  waits e he := by
    obtain ⟨call₁, id, hcall₁, hid₁, hkey, hwas, hchecks, hslot⟩ := w.waits e he
    by_cases hc : e.2.sender = c
    · rcases harmed with harmed | hnone
      · have heq : call₁ = call := Option.some.inj (hcall₁.symm.trans (hc ▸ hcall))
        subst heq
        refine ⟨call', id, ?_, ?_, hkey, harmed, ?_, hslot⟩
        · rw [hc]
          exact ModbusMaster.setCall_self
        · rw [hid (by rw [hid₁]; rfl), hid₁]
        · rw [hchecks, houtgoing]
      · exact absurd hc (hnone e he)
    · exact ⟨call₁, id, (ModbusMaster.setCall_of_ne hc).trans hcall₁, hid₁, hkey, hwas, hchecks,
        hslot⟩
  started c' hslot := by
    obtain ⟨call₁, hcall₁, hstarted₁⟩ := w.started c' hslot
    by_cases hc : c' = c
    · subst hc
      have heq : call = call₁ := Option.some.inj (hcall.symm.trans hcall₁)
      exact ⟨call', ModbusMaster.setCall_self, hstarted (heq ▸ hstarted₁)⟩
    · exact ⟨call₁, (ModbusMaster.setCall_of_ne hc).trans hcall₁, hstarted₁⟩
  earned c' reply hslot := by
    refine (w.earned c' reply hslot).mono ?_ (List.prefix_refl _)
    intro call₁ hcall₁
    by_cases hc : c' = c
    · subst hc
      have heq : call = call₁ := Option.some.inj (hcall.symm.trans hcall₁)
      subst heq
      exact ⟨call', ModbusMaster.setCall_self, houtgoing, hid⟩
    · exact ⟨call₁, (ModbusMaster.setCall_of_ne hc).trans hcall₁, rfl, fun _ => rfl⟩
  once := w.once
  done c' call₁ reply hcall₁ hphase := by
    rcases ModbusMaster.setCall_cases hcall₁ with ⟨rfl, rfl⟩ | ⟨-, hold⟩
    · exact hdone reply hphase
    · exact w.done c' call₁ reply hold hphase

/-- A call with no waiter returns an error that no frame caused, or what is in its slot. -/
theorem finish (w : Waiters m) (hcall : m.calls c = some call)
    (hno : ∀ e ∈ m.session, e.2.sender ≠ c) (reply : Reply κ ρ)
    (hreply : (∃ e, reply = ⟨.error e, none⟩) ∨ m.slots c = .filled reply) :
    Waiters (m.finish c call reply) :=
  (w.setCall { call with phase := .done reply } hcall rfl (fun _ => rfl) (.inr hno)
    (fun h => h.elim) (fun _ => trivial) fun _ h => by cases h; exact hreply).congr rfl rfl rfl rfl

/-- A new call. -/
theorem issue (w : Waiters m) (hfresh : m.calls c = none) (hid : call.id = none)
    (hdone : ∀ reply, call.phase = .done reply → ∃ e, reply = ⟨.error e, none⟩) :
    Waiters (m.setCall c call) where
  early c' call₁ hcall₁ hphase := by
    rcases ModbusMaster.setCall_cases hcall₁ with ⟨rfl, rfl⟩ | ⟨-, hold⟩
    · exact hid
    · exact w.early c' call₁ hold hphase
  waits e he := by
    obtain ⟨call₁, id, hcall₁, hrest⟩ := w.waits e he
    exact ⟨call₁, id, ModbusMaster.setCall_of_fresh hfresh hcall₁, hrest⟩
  started c' hslot := by
    obtain ⟨call₁, hcall₁, hstarted⟩ := w.started c' hslot
    exact ⟨call₁, ModbusMaster.setCall_of_fresh hfresh hcall₁, hstarted⟩
  earned c' reply hslot := by
    exact (w.earned c' reply hslot).mono (fun call₁ hcall₁ => ⟨call₁,
      ModbusMaster.setCall_of_fresh hfresh hcall₁, rfl, fun _ => rfl⟩) (List.prefix_refl _)
  once := w.once
  done c' call₁ reply hcall₁ hphase := by
    rcases ModbusMaster.setCall_cases hcall₁ with ⟨rfl, rfl⟩ | ⟨-, hold⟩
    · exact .inl (hdone reply hphase)
    · exact w.done c' call₁ reply hold hphase

/-- A waiter's slot is empty. -/
theorem waiter_slot (w : Waiters m) {e : WaiterKey × WaitingState Nat} (he : e ∈ m.session) :
    m.slots e.2.sender = .empty := by
  obtain ⟨_, _, _, _, _, _, _, hslot⟩ := w.waits e he
  exact hslot

/-- The waiters of one call are under one key. -/
theorem key_eq (w : Waiters m) {e e' : WaiterKey × WaitingState Nat} (he : e ∈ m.session)
    (he' : e' ∈ m.session) (h : e.2.sender = e'.2.sender) : e.1 = e'.1 := by
  obtain ⟨call, id, hcall, hid, hkey, -⟩ := w.waits e he
  obtain ⟨call', id', hcall', hid', hkey', -⟩ := w.waits e' he'
  rw [h, hcall'] at hcall
  cases hcall
  rw [hid'] at hid
  cases hid
  exact hkey.trans hkey'.symm

/-- The frame a reply comes from has arrived. -/
theorem source_lt (w : Waiters m) {reply : Reply κ ρ} {i : Nat} (hslot : m.slots c = .filled reply)
    (hsource : reply.source = some i) : i < m.arrived.length := by
  rcases w.earned c reply hslot with ⟨e, rfl⟩ | ⟨_, _, j, _, -, -, hframe, rfl⟩
  · cases hsource
  · cases hsource
    exact (List.getElem?_eq_some_iff.mp hframe).1

/-- Some waiters go, and their slots are written: with replies that no frame caused, or one slot with
a reply to a frame that has just arrived. -/
theorem retire (w : Waiters m) (senders : List Nat) (slot : Slot κ ρ) (hcalls : t.calls = m.calls)
    (hslots : t.slots = fun c => if c ∈ senders then slot else m.slots c)
    (harrived : m.arrived <+: t.arrived)
    (hkept : ∀ e ∈ t.session, e ∈ m.session ∧ e.2.sender ∉ senders)
    (hwaited : ∀ c ∈ senders, ∃ e ∈ m.session, e.2.sender = c)
    (hearned : ∀ c ∈ senders, ∀ reply, slot = .filled reply → Earned t c reply)
    (hnew : ∀ reply i, slot = .filled reply → reply.source = some i →
      m.arrived.length ≤ i ∧ ∃ c, senders = [c]) : Waiters t := by
  have hin : ∀ {c}, c ∈ senders → t.slots c = slot := fun h => by rw [hslots]; exact if_pos h
  have hout : ∀ {c}, c ∉ senders → t.slots c = m.slots c := fun h => by rw [hslots]; exact if_neg h
  have hempty : ∀ {c}, c ∈ senders → m.slots c = .empty := fun h => by
    obtain ⟨e, he, rfl⟩ := hwaited _ h
    exact w.waiter_slot he
  refine ⟨hcalls ▸ w.early, ?_, ?_, ?_,
    ?_, ?_⟩
  · intro e he
    obtain ⟨hold, hnot⟩ := hkept e he
    obtain ⟨call, id, hcall, hid, hkey, harmed, hchecks, hslot⟩ := w.waits e hold
    exact ⟨call, id, hcalls ▸ hcall, hid, hkey, harmed, hchecks, (hout hnot).trans hslot⟩
  · intro c hslot
    rw [hcalls]
    by_cases hc : c ∈ senders
    · obtain ⟨e, he, rfl⟩ := hwaited c hc
      obtain ⟨call, id, hcall, -, -, harmed, -⟩ := w.waits e he
      exact ⟨call, hcall, harmed.started⟩
    · exact w.started c (hout hc ▸ hslot)
  · intro c reply hslot
    by_cases hc : c ∈ senders
    · exact hearned c hc reply (hin hc ▸ hslot)
    · exact (w.earned c reply (hout hc ▸ hslot)).mono
        (fun call hcall => ⟨call, hcalls ▸ hcall, rfl, fun _ => rfl⟩) harrived
  · intro c c' r r' i hslot hslot' hsource hsource'
    by_cases hc : c ∈ senders <;> by_cases hc' : c' ∈ senders
    · obtain ⟨-, c₀, rfl⟩ := hnew r i (hin hc ▸ hslot) hsource
      rw [List.mem_singleton.mp hc, List.mem_singleton.mp hc']
    · have hlt := w.source_lt (hout hc' ▸ hslot') hsource'
      exact absurd hlt (Nat.not_lt.mpr (hnew r i (hin hc ▸ hslot) hsource).1)
    · have hlt := w.source_lt (hout hc ▸ hslot) hsource
      exact absurd hlt (Nat.not_lt.mpr (hnew r' i (hin hc' ▸ hslot') hsource').1)
    · exact w.once c c' r r' i (hout hc ▸ hslot) (hout hc' ▸ hslot') hsource hsource'
  · intro c call reply hcall hphase
    rcases w.done c call reply (hcalls ▸ hcall) hphase with herror | hslot
    · exact .inl herror
    · refine .inr ((hout ?_).trans hslot)
      intro hc
      rw [hempty hc] at hslot
      cases hslot

/-- The waiter under a key goes without a word. -/
theorem dropWaiter (w : Waiters m) (key : WaiterKey) : Waiters (m.dropWaiter key) := by
  refine w.retire _ _ rfl rfl (List.prefix_refl _) ?_ ?_
    (fun _ _ _ h => nomatch h) (fun _ _ h => nomatch h)
  · intro e he
    obtain ⟨hold, hkey⟩ := List.mem_filter.mp he
    refine ⟨hold, ?_⟩
    intro hmem
    obtain ⟨e', he', hsender⟩ := List.mem_map.mp hmem
    obtain ⟨hold', hkey'⟩ := List.mem_filter.mp he'
    exact of_decide_eq_true hkey
      ((w.key_eq hold hold' hsender.symm).trans (of_decide_eq_true hkey'))
  · intro c hc
    obtain ⟨e, he, rfl⟩ := List.mem_map.mp hc
    exact ⟨e, List.mem_of_mem_filter he, rfl⟩

/-- A call whose waiter was dropped has none. -/
theorem dropped_sender_ne (w : Waiters m) (hcall : m.calls c = some call) {id : Id}
    (hid : call.id = some id) : ∀ e ∈ (m.dropWaiter (.tid id.tid)).session, e.2.sender ≠ c := by
  rintro e he rfl
  obtain ⟨hold, hkey⟩ := List.mem_filter.mp he
  obtain ⟨call', id', hcall', hid', heq, -⟩ := w.waits e hold
  rw [hcall] at hcall'
  cases hcall'
  rw [hid] at hid'
  cases hid'
  exact of_decide_eq_true hkey heq

/-- A call whose slot has been written has no waiter. -/
theorem sender_ne_of_slot (w : Waiters m) (hslot : m.slots c ≠ .empty)
    {e : WaiterKey × WaitingState Nat} (he : e ∈ m.session) : e.2.sender ≠ c := by
  rintro rfl
  exact hslot (w.waiter_slot he)

/-- A call arms its waiter. -/
theorem arm (w : Waiters m) (hcall : m.calls c = some call) (hphase : call.phase = .allocated)
    {id : Id} (hid : call.id = some id) :
    Waiters { (m.dropWaiter (.tid id.tid)).setCall c { call with phase := .armed } with
      session := m.session.start (.tid id.tid) (checkTid id.tid :: call.outgoing.checks) c } := by
  have hempty : (m.dropWaiter (.tid id.tid)).slots c = .empty :=
    (w.dropWaiter _).slot_empty hcall (by rw [hphase]; exact not_false)
  have moved := (w.dropWaiter (.tid id.tid)).setCall { call with phase := .armed } hcall rfl
    (fun _ => rfl) (.inl trivial) (fun h => h.elim) (fun _ => trivial) (fun _ h => nomatch h)
  refine ⟨moved.early, ?_, moved.started, moved.earned, moved.once, moved.done⟩
  intro e he
  rcases List.mem_append.mp he with hold | hnew
  · exact moved.waits e hold
  · obtain rfl := List.mem_singleton.mp hnew
    exact ⟨_, id, ModbusMaster.setCall_self, hid, rfl, trivial, rfl, hempty⟩

/-- All waiters go with an error. -/
theorem stopAll (w : Waiters m) (error : ModbusError) : Waiters (m.stopAll error) := by
  refine w.retire _ _ rfl rfl (List.prefix_refl _) (fun _ h => nomatch h) ?_
    ?_ ?_
  · intro c hc
    obtain ⟨e, he, rfl⟩ := List.mem_map.mp hc
    exact ⟨e, he, rfl⟩
  · intro c _ reply h
    cases h
    exact .inl ⟨error, rfl⟩
  · intro reply i h hsource
    cases h
    cases hsource

end Waiters

/-! ## Arrivals -/

/-- The waiter a frame finds, and what its call gets. -/
theorem Waiters.route_eq {m : ModbusMaster κ ρ} (w : Waiters m) {frame : Framing κ ρ} {c : Nat}
    {result : Except ModbusError (Framing κ ρ)} (h : m.session.route frame = some (c, result)) :
    ∃ e ∈ m.session, e.1 = .of frame.adu ∧ e.2.sender = c ∧ ∃ call id, m.calls c = some call ∧
      call.id = some id ∧ e.1 = .tid id.tid ∧ result = call.verdict id.tid frame := by
  obtain ⟨state, hget, hsent⟩ := Option.map_eq_some_iff.mp h
  obtain ⟨e, hfind, rfl⟩ := Option.map_eq_some_iff.mp hget
  have he := List.mem_of_find?_eq_some hfind
  have hkey : e.1 = .of frame.adu := by simpa only [decide_eq_true_eq] using List.find?_some hfind
  obtain ⟨call, id, hcall, hid, hown, -, hchecks, -⟩ := w.waits e he
  refine ⟨e, he, hkey, ?_⟩
  rw [hchecks] at hsent
  split at hsent
  next hpass =>
    cases hsent
    refine ⟨rfl, call, id, hcall, hid, hown, ?_⟩
    rw [Call.verdict, hpass]
  next error hfail =>
    cases hsent
    refine ⟨rfl, call, id, hcall, hid, hown, ?_⟩
    rw [Call.verdict, hfail]

/-- A frame that finds no waiter only arrives. -/
theorem ModbusMaster.handleFrame_of_none {m : ModbusMaster κ ρ} {frame : Framing κ ρ}
    (h : m.session.route frame = none) :
    m.handleFrame frame = { m with arrived := m.arrived ++ [frame] } := by
  rw [ModbusMaster.handleFrame, h]

/-- An arrival moves no call and draws no id. -/
theorem ModbusMaster.handleFrame_calls (m : ModbusMaster κ ρ) (frame : Framing κ ρ) :
    (m.handleFrame frame).calls = m.calls ∧ (m.handleFrame frame).nextTid = m.nextTid ∧
      (m.handleFrame frame).drawn = m.drawn := by
  unfold ModbusMaster.handleFrame
  split <;> exact ⟨rfl, rfl, rfl⟩

theorem ModbusMaster.handleFrame_lock (m : ModbusMaster κ ρ) (frame : Framing κ ρ) :
    (m.handleFrame frame).concurrent = m.concurrent ∧ (m.handleFrame frame).closed = m.closed ∧
      (m.handleFrame frame).queueLock = m.queueLock := by
  unfold ModbusMaster.handleFrame
  split <;> exact ⟨rfl, rfl, rfl⟩

/-- A frame finds no waiter only when there is none under its key. -/
theorem ModbusMaster.key_ne_of_none {m : ModbusMaster κ ρ} {frame : Framing κ ρ}
    (h : m.session.route frame = none) {e : WaiterKey × WaitingState Nat} (he : e ∈ m.session) :
    e.1 ≠ .of frame.adu := by
  have hget := Option.map_eq_none_iff.mp (Option.map_eq_none_iff.mp h)
  simpa only [decide_eq_true_eq] using List.find?_eq_none.mp hget e he

/-- The slots after a frame that finds a waiter. -/
theorem ModbusMaster.handleFrame_slots {m : ModbusMaster κ ρ} {frame : Framing κ ρ} {c : Nat}
    {result : Except ModbusError (Framing κ ρ)} (h : m.session.route frame = some (c, result))
    (c' : Nat) : (m.handleFrame frame).slots c' =
      if c' ∈ [c] then .filled ⟨result, some m.arrived.length⟩ else m.slots c' := by
  rw [ModbusMaster.handleFrame, h]
  rfl

/-- The waiters under other keys stay. -/
theorem ModbusMaster.mem_handleFrame {m : ModbusMaster κ ρ} {frame : Framing κ ρ}
    {e : WaiterKey × WaitingState Nat} (he : e ∈ m.session) (hkey : e.1 ≠ .of frame.adu) :
    e ∈ (m.handleFrame frame).session := by
  unfold ModbusMaster.handleFrame
  split
  · exact he
  · exact List.mem_filter.mpr ⟨he, decide_eq_true hkey⟩

theorem Waiters.handleFrame {m : ModbusMaster κ ρ} (w : Waiters m) (frame : Framing κ ρ) :
    Waiters (m.handleFrame frame) := by
  cases hroute : m.session.route frame with
  | none =>
    rw [ModbusMaster.handleFrame_of_none hroute]
    exact w.retire [] .empty rfl (funext fun _ => rfl)
      (List.prefix_append ..) (fun e he => ⟨he, List.not_mem_nil⟩) (fun _ h => nomatch h)
      (fun _ h => nomatch h) (fun _ _ h => nomatch h)
  | some sent =>
    obtain ⟨c, result⟩ := sent
    obtain ⟨e, he, hkey, rfl, call, id, hcall, hid, hown, rfl⟩ := w.route_eq hroute
    rw [ModbusMaster.handleFrame, hroute]
    refine w.retire [e.2.sender] _ rfl rfl (List.prefix_append ..) ?_
      (fun c hc => ⟨e, he, (List.mem_singleton.mp hc).symm⟩) ?_ ?_
    · intro e' he'
      obtain ⟨hold, hne⟩ := List.mem_filter.mp he'
      refine ⟨hold, ?_⟩
      intro hmem
      exact of_decide_eq_true hne ((w.key_eq hold he (List.mem_singleton.mp hmem)).trans hkey)
    · intro c hc reply h
      cases h
      obtain rfl := List.mem_singleton.mp hc
      exact .inr ⟨call, id, m.arrived.length, frame, hcall, hid, List.getElem?_concat_length .., rfl⟩
    · intro reply i h hsource
      cases h
      cases hsource
      exact ⟨Nat.le_refl _, e.2.sender, rfl⟩

/-! ## Steps -/

theorem Ids.stepCall {start : Nat} {m t : ModbusMaster κ ρ} {c : Nat} {call : Call κ ρ}
    (ids : Ids start m) (hcall : m.calls c = some call) {action : Action}
    (few : FewDrawn m (.call c action)) (h : m.stepCall c call action = some t) : Ids start t := by
  rcases ModbusMaster.stepCall_cases h with ⟨-, hphase, -, ⟨-, rfl⟩ | ⟨-, rfl⟩⟩ | ⟨rfl, -, rfl⟩ |
    ⟨_, -, hphase, -, rfl⟩ | ⟨hphase, ⟨-, rfl⟩ | ⟨_, -, rfl⟩⟩ | ⟨-, hphase, -, rfl⟩ |
    ⟨_, _, -, hphase, -, rfl⟩ | ⟨-, hphase, ⟨_, -, rfl⟩ | ⟨-, rfl⟩⟩
  case inr.inl => exact ids.allocate few
  all_goals exact ids.move hcall rfl rfl rfl (by simp [hphase])

theorem Ids.step {start : Nat} {m t : ModbusMaster κ ρ} (ids : Ids start m) {label : Label κ ρ}
    (few : FewDrawn m label) (h : m.step label = some t) : Ids start t := by
  cases label with
  | issue c outgoing =>
    rw [ModbusMaster.step] at h
    split at h
    · cases h
    split at h <;>
    · cases h
      refine ids.keep rfl rfl ?_
      intro c' call' hcall'
      rcases ModbusMaster.setCall_cases hcall' with ⟨rfl, rfl⟩ | ⟨-, hold⟩
      · exact .inl rfl
      · exact .inr ⟨call', hold, rfl, .inr rfl⟩
  | call c action =>
    obtain ⟨call, hcall, hstep⟩ := Option.bind_eq_some_iff.mp h
    exact ids.stepCall hcall few hstep
  | frame frame =>
    cases h
    obtain ⟨hcalls, hnext, hdrawn⟩ := m.handleFrame_calls frame
    exact ids.keep hnext hdrawn fun c call hcall => .inr ⟨call, hcalls ▸ hcall, rfl, .inr rfl⟩
  | error e =>
    cases h
    exact ids.keep rfl rfl fun c call hcall => .inr ⟨call, hcall, rfl, .inr rfl⟩
  | closed =>
    cases h
    exact ids.keep rfl rfl fun c call hcall => .inr ⟨call, hcall, rfl, .inr rfl⟩

theorem Waiters.stepCall {m t : ModbusMaster κ ρ} {c : Nat} {call : Call κ ρ} (w : Waiters m)
    (hcall : m.calls c = some call) {action : Action} (h : m.stepCall c call action = some t) :
    Waiters t := by
  rcases ModbusMaster.stepCall_cases h with ⟨-, hphase, -, ⟨-, rfl⟩ | ⟨-, rfl⟩⟩ | ⟨-, hphase, rfl⟩ |
    ⟨id, -, hphase, hid, rfl⟩ | ⟨hphase, ⟨-, rfl⟩ | ⟨e, -, rfl⟩⟩ | ⟨-, hphase, -, rfl⟩ |
    ⟨e, id, -, hphase, hid, rfl⟩ | ⟨-, hphase, ⟨reply, hslot, rfl⟩ | ⟨hslot, rfl⟩⟩
  -- lock, when the master is closed
  · exact w.finish hcall (fun e he => w.sender_ne hcall (by rw [hphase]; exact not_false) he) _
      (.inl ⟨_, rfl⟩)
  -- lock
  · have hnone := w.early c call hcall (by rw [hphase]; trivial)
    exact (w.setCall { call with phase := .locked } hcall rfl (fun _ => rfl)
      (.inr fun e he => w.sender_ne hcall (by rw [hphase]; exact not_false) he) (fun _ => hnone)
      (by rw [hphase]; exact fun h => h) (fun _ h => nomatch h)).congr rfl rfl rfl rfl
  -- allocate
  · have hnone := w.early c call hcall (by rw [hphase]; trivial)
    exact (w.setCall { call with id := some ⟨m.nextTid, m.drawn⟩, phase := .allocated } hcall rfl
      (fun h => by rw [hnone] at h; cases h)
      (.inr fun e he => w.sender_ne hcall (by rw [hphase]; exact not_false) he) (fun h => h.elim)
      (by rw [hphase]; exact fun h => h) (fun _ h => nomatch h)).congr rfl rfl rfl rfl
  -- arm
  · exact w.arm hcall hphase hid
  -- write
  · exact w.setCall _ hcall rfl (fun _ => rfl) (.inl trivial) (fun h => h.elim) (fun _ => trivial)
      fun _ h => nomatch h
  -- a write that fails
  · exact w.setCall _ hcall rfl (fun _ => rfl) (.inl trivial) (fun h => h.elim) (fun _ => trivial)
      fun _ h => nomatch h
  -- timeout
  · exact w.setCall _ hcall rfl (fun _ => rfl) (.inl trivial) (fun h => h.elim) (fun _ => trivial)
      fun _ h => nomatch h
  -- stop
  · exact (w.dropWaiter (.tid id.tid)).finish hcall (w.dropped_sender_ne hcall hid) _ (.inl ⟨e, rfl⟩)
  -- resolve
  · exact w.finish hcall (fun e he => w.sender_ne_of_slot (by rw [hslot]; simp) he) _ (.inr hslot)
  · exact w.finish hcall (fun e he => w.sender_ne_of_slot (by rw [hslot]; simp) he) _
      (.inl ⟨_, rfl⟩)

theorem Waiters.step {m t : ModbusMaster κ ρ} (w : Waiters m) {label : Label κ ρ}
    (h : m.step label = some t) : Waiters t := by
  cases label with
  | issue c outgoing =>
    rw [ModbusMaster.step] at h
    split at h
    · cases h
    next hnew =>
      have hfresh : m.calls c = none :=
        Option.not_isSome_iff_eq_none.mp fun hsome => hnew (.inl hsome)
      split at h
      · cases h
        exact w.issue hfresh rfl fun _ hdone => by cases hdone; exact ⟨_, rfl⟩
      · cases h
        exact w.issue hfresh rfl fun _ hdone => nomatch hdone
  | call c action =>
    obtain ⟨call, hcall, hstep⟩ := Option.bind_eq_some_iff.mp h
    exact w.stepCall hcall hstep
  | frame frame =>
    cases h
    exact w.handleFrame frame
  | error e =>
    cases h
    exact w.stopAll e
  | closed =>
    cases h
    exact w.congr rfl rfl rfl rfl

/-- A slot that has been written is not written again. -/
theorem Waiters.step_slot {m t : ModbusMaster κ ρ} (w : Waiters m) {label : Label κ ρ}
    (h : m.step label = some t) {c : Nat} (hslot : m.slots c ≠ .empty) :
    t.slots c = m.slots c := by
  have hno : ∀ e ∈ m.session, e.2.sender ≠ c := fun e he => w.sender_ne_of_slot hslot he
  have hdrop : ∀ key, (m.dropWaiter key).slots c = m.slots c := fun key => by
    apply if_neg
    intro hmem
    obtain ⟨e, he, hsender⟩ := List.mem_map.mp hmem
    exact hno e (List.mem_of_mem_filter he) hsender
  cases label with
  | issue c' outgoing =>
    rw [ModbusMaster.step] at h
    split at h
    · cases h
    split at h <;>
    · cases h
      rfl
  | call c' action =>
    obtain ⟨call, -, hstep⟩ := Option.bind_eq_some_iff.mp h
    rcases ModbusMaster.stepCall_cases hstep with ⟨-, -, -, ⟨-, rfl⟩ | ⟨-, rfl⟩⟩ | ⟨-, -, rfl⟩ |
      ⟨id, -, -, -, rfl⟩ | ⟨-, ⟨-, rfl⟩ | ⟨_, -, rfl⟩⟩ | ⟨-, -, -, rfl⟩ | ⟨_, id, -, -, -, rfl⟩ |
      ⟨-, -, ⟨_, -, rfl⟩ | ⟨-, rfl⟩⟩ <;>
    first | rfl | exact hdrop (.tid id.tid)
  | frame frame =>
    cases h
    unfold ModbusMaster.handleFrame
    split
    · rfl
    next c' result hroute =>
      obtain ⟨e, he, -, rfl, -⟩ := w.route_eq hroute
      exact if_neg fun hmem => hno e he (List.mem_singleton.mp hmem).symm
  | error e =>
    cases h
    apply if_neg
    intro hmem
    obtain ⟨e, he, hsender⟩ := List.mem_map.mp hmem
    exact hno e he hsender
  | closed =>
    cases h
    rfl

/-! ## Runs -/

/-- The calls agree with the counter and with the session. -/
structure Agree (start : Nat) (m : ModbusMaster κ ρ) : Prop where
  ids : Ids start m
  waiters : Waiters m

namespace Agree

variable {start : Nat} {m t : ModbusMaster κ ρ}

theorem opened (concurrent : Bool) (start : Nat) :
    Agree start (.opened concurrent start : ModbusMaster κ ρ) :=
  ⟨.opened concurrent, .opened concurrent start⟩

theorem run (a : Agree start m) {labels : List (Label κ ρ)}
    (run : exec ModbusMaster.step m labels = some t)
    (few : Meets ModbusMaster.step FewDrawn m labels) : Agree start t :=
  exec_invariant (fun _ _ _ a few h => ⟨a.ids.step few h, a.waiters.step h⟩) run few a

end Agree

/-! ## Checks that pass -/

/-- The check of a transaction id passes on a frame with the id. -/
theorem checkTid_passes {adu : ApplicationDataUnit} {tid : UInt16}
    (h : checkTid tid adu = .pass ∨ checkTid tid adu = .needLength adu.data.length) :
    adu.transaction = some tid := by
  by_contra hne
  rw [checkTid, if_neg hne] at h
  rcases h with h | h <;> cases h

/-- The check of unit and function code passes on a frame with both. -/
theorem checkUnitFc_passes {adu : ApplicationDataUnit} {unit fc : UInt8}
    (h : checkUnitFc unit fc adu = .pass ∨ checkUnitFc unit fc adu = .needLength adu.data.length) :
    adu.unit = unit ∧ adu.fc = fc := by
  by_contra hne
  rw [checkUnitFc, if_neg hne] at h
  rcases h with h | h <;> cases h

/-- A verdict that is a frame is the frame judged, which has the id and passes the checks. -/
theorem Call.verdict_ok {call : Call κ ρ} {tid : UInt16} {frame frame' : Framing κ ρ}
    (h : .ok frame = call.verdict tid frame') : frame = frame' ∧
      frame.adu.transaction = some tid ∧ ∀ check ∈ call.outgoing.checks,
        check frame.adu = .pass ∨ check frame.adu = .needLength frame.adu.data.length := by
  rw [Call.verdict] at h
  split at h
  next hpass =>
    cases h
    have hall := List.forall_mem_cons.mp (runPreChecks_eq_none.mp hpass)
    exact ⟨rfl, checkTid_passes hall.1, hall.2⟩
  · cases h

/-! ## Isolation -/

/-- What holds of a master's calls at any time. -/
structure Isolated (m : ModbusMaster κ ρ) : Prop where
  /-- The ids of outstanding calls are in `1..=65535`. -/
  tid_pos : ∀ c call id, m.calls c = some call → call.outstanding = some id → 1 ≤ id.tid.toNat
  /-- Different outstanding calls have different ids. -/
  tid_ne : ∀ c c' call call' id id', c ≠ c' → m.calls c = some call → m.calls c' = some call' →
    call.outstanding = some id → call'.outstanding = some id' → id.tid ≠ id'.tid
  /-- A call that returns a frame returns one that arrived with its id and passes its checks. -/
  own : ∀ c call frame source, m.calls c = some call → call.phase = .done ⟨.ok frame, source⟩ →
    ∃ id, call.id = some id ∧ frame ∈ m.arrived ∧ frame.adu.transaction = some id.tid ∧
      ∀ check ∈ call.outgoing.checks,
        check frame.adu = .pass ∨ check frame.adu = .needLength frame.adu.data.length
  /-- The frame a call of a request method returns has the unit and the function code asked for. -/
  asked : ∀ c call frame source (τ : Type) (method : MasterRequest τ), m.calls c = some call →
    call.outgoing = method.outgoing → call.phase = .done ⟨.ok frame, source⟩ →
    frame.adu.unit = method.request.unit ∧ frame.adu.fc = method.request.fc
  /-- An arrival completes one call at most. -/
  single : ∀ c c' call call' reply reply' i, m.calls c = some call → m.calls c' = some call' →
    call.phase = .done reply → call'.phase = .done reply' → reply.source = some i →
    reply'.source = some i → c = c'
  /-- A frame with the id of no outstanding call only arrives. -/
  stale : ∀ frame tid, frame.adu.transaction = some tid → (∀ c call id, m.calls c = some call →
    call.outstanding = some id → id.tid ≠ tid) →
    m.handleFrame frame = { m with arrived := m.arrived ++ [frame] }

theorem Phase.Armed.outstanding {call : Call κ ρ} (h : call.phase.Armed) :
    call.outstanding = call.id := by
  unfold Call.outstanding
  split
  next reply hdone =>
    rw [hdone] at h
    exact h.elim
  · rfl

namespace Agree

variable {start : Nat} {m t : ModbusMaster κ ρ}

/-- The frame of a call that is done comes from an arrival. -/
theorem done_ok (a : Agree start m) {c : Nat} {call : Call κ ρ} {frame : Framing κ ρ}
    {source : Option Nat} (hcall : m.calls c = some call)
    (hdone : call.phase = .done ⟨.ok frame, source⟩) :
    ∃ id, call.id = some id ∧ frame ∈ m.arrived ∧ frame.adu.transaction = some id.tid ∧
      ∀ check ∈ call.outgoing.checks,
        check frame.adu = .pass ∨ check frame.adu = .needLength frame.adu.data.length := by
  rcases a.waiters.done c call _ hcall hdone with ⟨e, herror⟩ | hslot
  · cases herror
  rcases a.waiters.earned c _ hslot with ⟨e, herror⟩ | ⟨call', id, i, frame', hcall', hid, hframe, heq⟩
  · cases herror
  rw [hcall] at hcall'
  cases hcall'
  obtain ⟨rfl, htid, hchecks⟩ := Call.verdict_ok (congrArg Reply.result heq)
  exact ⟨id, hid, List.mem_of_getElem? hframe, htid, hchecks⟩

/-- The slot of a call that is done has the reply, if a frame caused it. -/
theorem done_slot (a : Agree start m) {c i : Nat} {call : Call κ ρ} {reply : Reply κ ρ}
    (hcall : m.calls c = some call) (hdone : call.phase = .done reply)
    (hsource : reply.source = some i) : m.slots c = .filled reply := by
  rcases a.waiters.done c call reply hcall hdone with ⟨e, rfl⟩ | hslot
  · cases hsource
  · exact hslot

theorem isolated (a : Agree start m) : Isolated m where
  tid_pos c call id hcall hout := by
    rw [(a.ids.drawn c call id hcall (Call.outstanding_eq hout)).1, toNat_tidAt]
    exact Nat.le_add_left ..
  tid_ne _ _ _ _ _ _ hne hcall hcall' hout hout' htid :=
    hne (a.ids.tid_inj hcall hcall' hout hout' htid)
  own _ _ _ _ hcall hdone := a.done_ok hcall hdone
  asked c call frame source τ method hcall houtgoing hdone := by
    obtain ⟨-, -, -, -, hchecks⟩ := a.done_ok hcall hdone
    rw [houtgoing] at hchecks
    exact checkUnitFc_passes (hchecks _ List.mem_cons_self)
  single c c' call call' reply reply' i hcall hcall' hdone hdone' hsource hsource' :=
    a.waiters.once c c' reply reply' i (a.done_slot hcall hdone hsource)
      (a.done_slot hcall' hdone' hsource') hsource hsource'
  stale frame tid htid hnone := by
    refine ModbusMaster.handleFrame_of_none (Option.eq_none_iff_forall_ne_some.mpr ?_)
    rintro ⟨c, result⟩ hroute
    obtain ⟨e, he, hkey, -, -⟩ := a.waiters.route_eq hroute
    obtain ⟨call, id, hcall, hid, hown, harmed, -⟩ := a.waiters.waits e he
    refine hnone e.2.sender call id hcall (harmed.outstanding.trans hid) ?_
    rw [hkey, WaiterKey.of, htid] at hown
    exact (WaiterKey.tid.inj hown).symm

end Agree

/-! ## Calls that are done -/

namespace ModbusMaster

variable {m t : ModbusMaster κ ρ} {c : Nat} {call : Call κ ρ} {reply : Reply κ ρ}

/-- A call that is done takes no step. -/
theorem stepCall_done (hdone : call.phase = .done reply) (a : Action) :
    m.stepCall c call a = none := by
  rw [Option.eq_none_iff_forall_ne_some]
  intro t h
  rcases stepCall_cases h with ⟨-, hphase, -⟩ | ⟨-, hphase, -⟩ | ⟨_, -, hphase, -⟩ | ⟨hphase, -⟩ |
    ⟨-, hphase, -⟩ | ⟨_, _, -, hphase, -⟩ | ⟨-, hphase, -⟩ <;>
  · rw [hdone] at hphase
    cases hphase

/-- A step of a call leaves the other calls. -/
theorem stepCall_calls {a : Action} (h : m.stepCall c call a = some t) {c' : Nat} (hne : c' ≠ c) :
    t.calls c' = m.calls c' := by
  rcases stepCall_cases h with ⟨-, -, -, ⟨-, rfl⟩ | ⟨-, rfl⟩⟩ | ⟨-, -, rfl⟩ | ⟨_, -, -, -, rfl⟩ |
    ⟨-, ⟨-, rfl⟩ | ⟨_, -, rfl⟩⟩ | ⟨-, -, -, rfl⟩ | ⟨_, _, -, -, -, rfl⟩ |
    ⟨-, -, ⟨_, -, rfl⟩ | ⟨-, rfl⟩⟩ <;>
  exact setCall_of_ne hne

/-- A call that is done stays as it is. -/
theorem step_done (hcall : m.calls c = some call) (hdone : call.phase = .done reply)
    {label : Label κ ρ} (h : m.step label = some t) : t.calls c = some call := by
  cases label with
  | issue c' outgoing =>
    rw [step] at h
    split at h
    · cases h
    next hnew =>
      have hne : c ≠ c' := by
        rintro rfl
        exact hnew (.inl (hcall ▸ rfl))
      split at h <;>
      · cases h
        exact (setCall_of_ne hne).trans hcall
  | call c' action =>
    obtain ⟨call', hcall', hstep⟩ := Option.bind_eq_some_iff.mp h
    by_cases hc : c = c'
    · subst hc
      rw [hcall] at hcall'
      cases hcall'
      rw [stepCall_done hdone] at hstep
      cases hstep
    · exact (stepCall_calls hstep hc).trans hcall
  | frame frame =>
    cases h
    rw [(m.handleFrame_calls frame).1, hcall]
  | error e =>
    cases h
    exact hcall
  | closed =>
    cases h
    exact hcall

end ModbusMaster

/-- **Isolation.** However calls, writes that fail, timeouts, framing errors, a close and arriving
frames of any content interleave, while fewer than 65535 ids are drawn from a call's start to its
end: the calls are isolated, and a call that is done stays so. -/
theorem calls_isolated (concurrent : Bool) (start : Nat) {m : ModbusMaster κ ρ}
    {labels : List (Label κ ρ)}
    (run : exec ModbusMaster.step (.opened concurrent start) labels = some m)
    (few : Meets ModbusMaster.step FewDrawn (.opened concurrent start) labels) :
    Isolated m ∧ ∀ (labels' : List (Label κ ρ)) (m' : ModbusMaster κ ρ) (c : Nat) (call : Call κ ρ)
      (reply : Reply κ ρ), exec ModbusMaster.step m labels' = some m' → m.calls c = some call →
      call.phase = .done reply → m'.calls c = some call := by
  refine ⟨((Agree.opened concurrent start).run run few).isolated, ?_⟩
  intro labels' m' c call reply run' hcall hdone
  exact exec_invariant' (P := fun s => s.calls c = some call)
    (fun _ _ _ hp h => ModbusMaster.step_done hp hdone h) run' hcall

/-! ## A run -/

/-- A step draws one id at most. -/
theorem ModbusMaster.step_drawn {m t : ModbusMaster κ ρ} {label : Label κ ρ}
    (h : m.step label = some t) : t.drawn ≤ m.drawn + 1 := by
  cases label with
  | issue c outgoing =>
    rw [step] at h
    split at h
    · cases h
    split at h <;>
    · cases h
      exact Nat.le_succ _
  | call c action =>
    obtain ⟨call, -, hstep⟩ := Option.bind_eq_some_iff.mp h
    rcases stepCall_cases hstep with ⟨-, -, -, ⟨-, rfl⟩ | ⟨-, rfl⟩⟩ | ⟨-, -, rfl⟩ | ⟨_, -, -, -, rfl⟩ |
      ⟨-, ⟨-, rfl⟩ | ⟨_, -, rfl⟩⟩ | ⟨-, -, -, rfl⟩ | ⟨_, _, -, -, -, rfl⟩ |
      ⟨-, -, ⟨_, -, rfl⟩ | ⟨-, rfl⟩⟩ <;>
    first | exact Nat.le_succ _ | exact Nat.le_refl _
  | frame frame =>
    cases h
    rw [(m.handleFrame_calls frame).2.2]
    exact Nat.le_succ _
  | error e =>
    cases h
    exact Nat.le_succ _
  | closed =>
    cases h
    exact Nat.le_succ _

/-- A run that is short enough draws few ids. -/
theorem few_of_short {m : ModbusMaster κ ρ} {labels : List (Label κ ρ)}
    (h : m.drawn + labels.length ≤ 65535) : Meets ModbusMaster.step FewDrawn m labels := by
  induction labels generalizing m with
  | nil => trivial
  | cons label labels ih =>
    rw [List.length_cons] at h
    refine ⟨?_, fun t ht => ih ?_⟩
    · cases label with
      | call c action =>
        cases action with
        | allocate =>
          intro _ _ id _ _
          omega
        | _ => trivial
      | _ => trivial
    · have := ModbusMaster.step_drawn ht
      omega

/-- A response to `read_holding_registers`. -/
private def holding (tid : UInt16) (value : UInt8) : Framing Unit Unit :=
  ⟨⟨some tid, 1, 3, [2, 0, value]⟩, [], (), ()⟩

/-- A call of `read_holding_registers`, up to its write. -/
private def reading (c : Nat) : List (Label Unit Unit) :=
  [.issue c ⟨.new 1 3 [0, 0, 0, 1], [checkUnitFc 1 3, checkLength 3, checkByteCount 2]⟩,
    .call c .lock, .call c .allocate, .call c .arm, .call c (.write (.ok ()))]

/-- The two calls in flight, and their responses in the other order, the first one twice. -/
private def swapped : List (Label Unit Unit) :=
  reading 0 ++ reading 1 ++ [.frame (holding 1 7), .frame (holding 65535 9),
    .frame (holding 65535 8), .call 0 .resolve, .call 1 .resolve]

/-- Each of two calls in flight gets its own response. -/
theorem calls_isolated_swapped : ∃ m, exec ModbusMaster.step (.opened true 65534) swapped = some m ∧
    (m.calls 0).map (·.phase) = some (.done ⟨.ok (holding 65535 9), some 1⟩) ∧
    (m.calls 1).map (·.phase) = some (.done ⟨.ok (holding 1 7), some 0⟩) ∧ Isolated m :=
  have few : Meets ModbusMaster.step FewDrawn (.opened true 65534) swapped := few_of_short (by decide)
  ⟨_, rfl, rfl, rfl, (calls_isolated true 65534 rfl few).1⟩

end RsModbus.Master
