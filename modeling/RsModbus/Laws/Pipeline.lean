import RsModbus.Laws.Answers
import RsModbus.Library.Channels

/-!
# Calls on one connection are linearizable

* `Pipeline.linearizable`: whatever the order in which calls are issued, written, answered, timed out
  and returned, and whatever is lost of the bytes and frames between them, what the callers see is
  what the slave's model does with their operations one after the other.

An operation takes effect when the slave takes up its request. `Ledger` ties the calls to the
operations, and the replies they hold to the effects so far; `Flows` says what is on its way:
requests that have had no effect yet, and answers that tell their callers the results of theirs.
-/

namespace RsModbus

open Library Master Slave
open scoped List

variable {σ : Type}

/-! ## What is on its way -/

namespace Wire

/-- The wire as a channel. -/
def channel (w : Wire) : Channel UInt8 (Emit Unit Unit) :=
  ⟨w.bytes, w.buffer.getD [], w.queue, w.broken⟩

/-- The frames are on their way, in order. -/
def Carries (w : Wire) (frames : List FramedDataUnit) : Prop :=
  w.channel.Carries (Emit.framedFor ()) (fun f y => ∃ u, y = some u ∧ Tcp.IsFrame f u)
    (frames.map fun u => (u.raw, some u))

variable {w : Wire} {frames : List FramedDataUnit} {u : FramedDataUnit}

theorem Carries.write (h : w.Carries frames) (hu : Tcp.IsFrame u.raw u) (n : Nat)
    {result : Except ModbusError Unit} (haccepts : w.accepts result = true) :
    (w.write u.raw n result).Carries (frames ++ [u]) := by
  rw [Carries, List.map_append]
  cases result with
  | ok _ => exact h.send (Bool.not_eq_true' _ |>.mp haccepts) ⟨u, rfl, hu⟩
  | error _ => exact h.fail ⟨u, rfl, hu⟩ n

/-- After a write that failed, another changes nothing. -/
theorem write_again (w : Wire) (data data' : Bytes) (n : Nat) (err : ModbusError) :
    (w.write data n (.error err)).write data' n (.error err) = w.write data n (.error err) := rfl

theorem foldl_write (w : Wire) (data : Bytes) {rest : List Bytes} (n : Nat)
    {result : Except ModbusError Unit} (honce : result = .ok () → rest = []) :
    (data :: rest).foldl (fun w data => w.write data n result) w = w.write data n result := by
  cases result with
  | ok _ =>
    rw [honce rfl]
    rfl
  | error err =>
    rw [List.foldl_cons]
    clear honce
    induction rest with
    | nil => rfl
    | cons data' rest ih => rw [List.foldl_cons, write_again, ih]

theorem Carries.step (h : w.Carries frames) {label : WireLabel} {w' : Wire}
    (hstep : w.step label = some w') : w'.Carries (label.left frames) := by
  cases label with
  | read n =>
    cases hstep
    have hread := h.receive (Tcp.delimited_extract ()) () n
    have hentry := Tcp.processEntry_getD (κ := Unit) w.buffer ⟨w.bytes.take n, (), ()⟩
    have hretained := congrArg Prod.fst hentry
    have houtputs := congrArg Prod.snd hentry
    rw [Carries, channel]
    dsimp only at hretained houtputs ⊢
    rw [hretained, houtputs]
    exact hread
  | lose i =>
    rw [Wire.step] at hstep
    split at hstep
    next hi =>
      cases hstep
      have herase : (frames.eraseIdx i).map (fun u => (u.raw, some u)) =
          (frames.map fun u => (u.raw, some u)).eraseIdx i := by
        simp only [List.eraseIdx_eq_take_drop_succ, List.map_append, List.map_take, List.map_drop]
      rw [Carries, WireLabel.left, herase]
      exact h.lose hi
    next => cases hstep
  | cut n =>
    cases hstep
    exact h.cut n
  | close =>
    cases hstep
    exact h.hangUp

/-- What is taken next is the first of the frames. -/
theorem Carries.take (h : w.Carries frames) {x : Emit Unit Unit} {queue : List (Emit Unit Unit)}
    (hqueue : w.queue = x :: queue) : ∃ frame later, x = .framing frame ∧
      frames = frame.framed :: later ∧ { w with queue := queue }.Carries later := by
  obtain ⟨message, rest, hmessages, hview, hrest⟩ := Channel.Carries.take h hqueue
  cases frames with
  | nil => cases hmessages
  | cons u later =>
    obtain ⟨rfl, rfl⟩ := List.cons.inj hmessages
    cases x with
    | framingError err => cases hview
    | framing frame =>
      have hframed : frame.framed = u := Option.some.inj hview
      exact ⟨frame, later, rfl, by rw [hframed], hrest⟩

end Wire

/-! ## Steps of the master -/

/-- The call's write is over. -/
def Master.Phase.Asked {κ ρ : Type} : Phase κ ρ → Prop
  | .awaiting => True
  | .failed _ => True
  | .done _ => True
  | _ => False

/-- A step of the master that issues no call. -/
structure Master.Persists (m t : ModbusMaster Unit Unit) : Prop where
  keeps : ∀ c call, m.calls c = some call → ∃ call', t.calls c = some call' ∧
    (call.id.isSome → call'.id = call.id) ∧ (call.phase.Asked → call'.phase.Asked)
  calls : ∀ c call', t.calls c = some call' → ∃ call, m.calls c = some call ∧
    call'.outgoing = call.outgoing ∧ (call'.phase = .armed → call'.id.isSome ∨ call' = call)

/-- A step of the master that issues no call, and in which no reply comes from a frame. -/
structure Master.Moves (m t : ModbusMaster Unit Unit) : Prop extends Persists m t where
  slots : ∀ c reply i, t.slots c = .filled reply → reply.source = some i → m.slots c = .filled reply

/-- A step that leaves the calls. -/
theorem Master.Persists.of_calls {m t : ModbusMaster Unit Unit} (hcalls : t.calls = m.calls) :
    Persists m t where
  keeps _ call hcall := ⟨call, hcalls ▸ hcall, fun _ => rfl, fun h => h⟩
  calls _ call' hcall' := ⟨call', hcalls ▸ hcall', rfl, fun _ => .inr rfl⟩

namespace Master.Moves

variable {m t : ModbusMaster Unit Unit} {c : Nat} {call call' : Master.Call Unit Unit}

/-- A step that moves one call on. -/
theorem of_set (hcall : m.calls c = some call) (hcalls : t.calls = (m.setCall c call').calls)
    (houtgoing : call'.outgoing = call.outgoing) (hid : call.id.isSome → call'.id = call.id)
    (hasked : call.phase.Asked → call'.phase.Asked)
    (harmed : call'.phase = .armed → call'.id.isSome)
    (hslots : ∀ c reply i, t.slots c = .filled reply → reply.source = some i →
      m.slots c = .filled reply) : Moves m t where
  keeps c' call₁ hcall₁ := by
    rw [hcalls]
    by_cases hc : c' = c
    · subst hc
      cases hcall.symm.trans hcall₁
      exact ⟨call', ModbusMaster.setCall_self, hid, hasked⟩
    · exact ⟨call₁, (ModbusMaster.setCall_of_ne hc).trans hcall₁, fun _ => rfl, fun h => h⟩
  calls c' call₁ hcall₁ := by
    rw [hcalls] at hcall₁
    rcases ModbusMaster.setCall_cases hcall₁ with ⟨rfl, rfl⟩ | ⟨-, hold⟩
    · exact ⟨call, hcall, houtgoing, fun h => .inl (harmed h)⟩
    · exact ⟨call₁, hold, rfl, fun _ => .inr rfl⟩
  slots := hslots

/-- A reply is not what a dropped waiter leaves. -/
theorem dropWaiter_filled {key : WaiterKey} {c : Nat} {reply : Reply Unit Unit}
    (h : (m.dropWaiter key).slots c = .filled reply) : m.slots c = .filled reply := by
  simp only [ModbusMaster.dropWaiter, ModbusMaster.fill] at h
  split at h
  · cases h
  · exact h

theorem stepCall (w : Waiters m) (hcall : m.calls c = some call) {action : Action}
    (h : m.stepCall c call action = some t) : Moves m t := by
  rcases ModbusMaster.stepCall_cases h with ⟨-, hphase, -, ⟨-, rfl⟩ | ⟨-, rfl⟩⟩ | ⟨-, hphase, rfl⟩ |
    ⟨id, -, hphase, hid, rfl⟩ | ⟨hphase, ⟨-, rfl⟩ | ⟨err, -, rfl⟩⟩ | ⟨-, hphase, -, rfl⟩ |
    ⟨err, id, -, hphase, hid, rfl⟩ | ⟨-, hphase, ⟨reply, hslot, rfl⟩ | ⟨hslot, rfl⟩⟩
  -- lock, when the master is closed
  · exact of_set hcall rfl rfl (fun _ => rfl) (fun _ => trivial) nofun fun _ _ _ hslot _ => hslot
  -- lock
  · exact of_set hcall rfl rfl (fun _ => rfl) (by rw [hphase]; exact fun h => h) nofun
      fun _ _ _ hslot _ => hslot
  -- allocate
  · have hnone := w.early c call hcall (by rw [hphase]; trivial)
    exact of_set hcall rfl rfl (fun hid => by rw [hnone] at hid; cases hid)
      (by rw [hphase]; exact fun h => h) nofun fun _ _ _ hslot _ => hslot
  -- arm
  · exact of_set hcall rfl rfl (fun _ => rfl) (by rw [hphase]; exact fun h => h)
      (fun _ => by rw [hid]; rfl) fun _ _ _ hslot _ => dropWaiter_filled hslot
  -- write
  · exact of_set hcall rfl rfl (fun _ => rfl) (fun _ => trivial) nofun fun _ _ _ hslot _ => hslot
  -- a write that fails
  · exact of_set hcall rfl rfl (fun _ => rfl) (fun _ => trivial) nofun fun _ _ _ hslot _ => hslot
  -- timeout
  · exact of_set hcall rfl rfl (fun _ => rfl) (fun _ => trivial) nofun fun _ _ _ hslot _ => hslot
  -- stop
  · exact of_set hcall rfl rfl (fun _ => rfl) (fun _ => trivial) nofun
      fun _ _ _ hslot _ => dropWaiter_filled hslot
  -- resolve
  · exact of_set hcall rfl rfl (fun _ => rfl) (fun _ => trivial) nofun fun _ _ _ hslot _ => hslot
  · exact of_set hcall rfl rfl (fun _ => rfl) (fun _ => trivial) nofun fun _ _ _ hslot _ => hslot

/-- The replies of `stop_all` come from no frame. -/
theorem stopAll (m : ModbusMaster Unit Unit) (err : ModbusError) : Moves m (m.stopAll err) := by
  refine ⟨.of_calls rfl, ?_⟩
  intro c reply i hslot hsource
  simp only [ModbusMaster.stopAll, ModbusMaster.fill] at hslot
  split at hslot
  · cases hslot
    cases hsource
  · exact hslot

end Master.Moves

/-! ## Calls, effects and replies -/

/-- What an operation does at the slave, and what its caller is told of it. -/
def Slave.Does (range : AddressRange)
    (apply : (op : Operation) → σ → Except ModbusError op.Result × σ) (s : σ) (op : Operation)
    (answer : Operation.Answer) (t : σ) : Prop :=
  answer = ⟨op, some (Operation.seen (op.outcome range apply s).1)⟩ ∧
    t = (op.outcome range apply s).2

namespace Pipeline

/-- Call `c` of `op` has written its request, under `id`. -/
def Wrote (p : Pipeline σ) (c : Nat) (op : Operation) (id : Id) : Prop :=
  p.ops c = some op ∧ ∃ call, p.master.calls c = some call ∧ call.id = some id ∧ call.phase.Asked

theorem Wrote.mono {p q : Pipeline σ} {c : Nat} {op : Operation} {id : Id} (h : p.Wrote c op id)
    (hpersists : Persists p.master q.master) (hops : q.ops = p.ops) : q.Wrote c op id := by
  obtain ⟨hop, call, hcall, hid, hasked⟩ := h
  obtain ⟨call', hcall', hsame, hstill⟩ := hpersists.keeps c call hcall
  exact ⟨hops ▸ hop, call', hcall', (hsame (by rw [hid]; rfl)).trans hid, hstill hasked⟩

section Invariants

variable (e : Ends σ) (range : AddressRange)
  (apply : (op : Operation) → σ → Except ModbusError op.Result × σ) (start : Nat) (init : σ)

/-- The calls are calls of operations, which have taken effect in the order `order`, and the replies
they hold tell the results of their effects. -/
structure Ledger (p : Pipeline σ) (order : List (Effect Nat Operation Operation.Answer)) : Prop where
  agree : Agree start p.master
  issued : ∀ c call, p.master.calls c = some call → ∃ op m, p.ops c = some op ∧ op.Framed ∧
    op.request e.checks e.unit = .ok m ∧ call.outgoing = m.outgoing
  armed : ∀ c call, p.master.calls c = some call → call.phase = .armed → call.id.isSome
  recorded : ∀ c op, p.ops c = some op → .call c op ∈ p.history
  called : ∀ c op, .call c op ∈ p.history → (p.master.calls c).isSome
  traced : Traced (Does range apply) init p.history order p.world.state
  done : ∀ effect ∈ order, ∃ id, p.Wrote effect.id effect.op id
  replied : ∀ c reply i, p.master.slots c = .filled reply → reply.source = some i →
    ∃ op, p.ops c = some op ∧ ⟨c, op, e.answer op reply.result⟩ ∈ order

/-- The requests and the answers that are on their way. -/
structure Flows (p : Pipeline σ) (order : List (Effect Nat Operation Operation.Answer))
    (requests answers : List (Nat × FramedDataUnit)) : Prop where
  up : p.up.Carries (requests.map (·.2))
  down : p.down.Carries (answers.map (·.2))
  asking : p.asking = requests.map (·.1)
  answering : p.answering = answers.map (·.1)
  once : p.asking.Nodup
  waiting : ∀ c ∈ p.asking, c ∉ order.map (·.id)
  requested : ∀ r ∈ requests, ∃ op id m, p.Wrote r.1 op id ∧ p.master.drawn ≤ id.index + 65535 ∧
    op.request e.checks e.unit = .ok m ∧ r.2.adu = m.sent (some id.tid)
  answered : ∀ r ∈ answers, ∃ op id answer, p.Wrote r.1 op id ∧
    p.master.drawn ≤ id.index + 65535 ∧ e.Tells op id.tid r.2.adu answer ∧ ⟨r.1, op, answer⟩ ∈ order

end Invariants

variable {e : Ends σ} {range : AddressRange}
  {apply : (op : Operation) → σ → Except ModbusError op.Result × σ} {start : Nat} {init : σ}
  {p : Pipeline σ} {order : List (Effect Nat Operation Operation.Answer)}
  {requests answers : List (Nat × FramedDataUnit)} {t : ModbusMaster Unit Unit}

/-- The master moves on, and the replies that come from a frame tell effects. -/
theorem Ledger.move (h : Ledger e range apply start init p order) (hpersists : Persists p.master t)
    (hagree : Agree start t)
    (hreplied : ∀ c reply i, t.slots c = .filled reply → reply.source = some i →
      ∃ op, p.ops c = some op ∧ ⟨c, op, e.answer op reply.result⟩ ∈ order) :
    Ledger e range apply start init { p with master := t } order where
  agree := hagree
  issued c call' hcall' := by
    obtain ⟨call, hcall, houtgoing, -⟩ := hpersists.calls c call' hcall'
    obtain ⟨op, m, hop, hframed, hbuilt, hsame⟩ := h.issued c call hcall
    exact ⟨op, m, hop, hframed, hbuilt, houtgoing.trans hsame⟩
  armed c call' hcall' hphase := by
    obtain ⟨call, hcall, -, harmed⟩ := hpersists.calls c call' hcall'
    rcases harmed hphase with hsome | rfl
    · exact hsome
    · exact h.armed c call' hcall hphase
  recorded := h.recorded
  called c op hcalled := by
    obtain ⟨call, hcall⟩ := Option.isSome_iff_exists.mp (h.called c op hcalled)
    obtain ⟨call', hcall', -⟩ := hpersists.keeps c call hcall
    exact Option.isSome_iff_exists.mpr ⟨call', hcall'⟩
  traced := h.traced
  done effect heffect := by
    obtain ⟨id, hwrote⟩ := h.done effect heffect
    exact ⟨id, hwrote.mono hpersists rfl⟩
  replied := hreplied

/-- The replies that were there are those that come from a frame. -/
theorem Ledger.moves (h : Ledger e range apply start init p order) (hmoves : Moves p.master t)
    (hagree : Agree start t) : Ledger e range apply start init { p with master := t } order :=
  h.move hmoves.toPersists hagree fun c reply i hslot hsource =>
    h.replied c reply i (hmoves.slots c reply i hslot hsource) hsource

/-- What is on its way stays so while the master moves on. -/
theorem Flows.move (h : Flows e p order requests answers) (hpersists : Persists p.master t)
    (hdrawn : ∀ c ∈ p.asking ++ p.answering, ∀ call id, p.master.calls c = some call →
      call.id = some id → p.master.drawn ≤ id.index + 65535 → t.drawn ≤ id.index + 65535) :
    Flows e { p with master := t } order requests answers where
  up := h.up
  down := h.down
  asking := h.asking
  answering := h.answering
  once := h.once
  waiting := h.waiting
  requested r hr := by
    obtain ⟨op, id, m, hwrote, hrecent, hrest⟩ := h.requested r hr
    obtain ⟨call, hcall, hid, -⟩ := hwrote.2
    have hasking : r.1 ∈ p.asking ++ p.answering := by
      rw [h.asking]
      exact List.mem_append_left _ (List.mem_map_of_mem hr)
    exact ⟨op, id, m, hwrote.mono hpersists rfl, hdrawn r.1 hasking call id hcall hid hrecent, hrest⟩
  answered r hr := by
    obtain ⟨op, id, answer, hwrote, hrecent, hrest⟩ := h.answered r hr
    obtain ⟨call, hcall, hid, -⟩ := hwrote.2
    have hanswering : r.1 ∈ p.asking ++ p.answering := by
      rw [h.answering]
      exact List.mem_append_right _ (List.mem_map_of_mem hr)
    exact ⟨op, id, answer, hwrote.mono hpersists rfl,
      hdrawn r.1 hanswering call id hcall hid hrecent, hrest⟩

/-- A call returns what its reply tells. -/
theorem Ledger.returned (h : Ledger e range apply start init p order) (c : Nat) (action : Action) :
    Ledger e range apply start init { p with history := p.history ++ p.returned e c action } order := by
  have keep : p.returned e c action = [] →
      Ledger e range apply start init { p with history := p.history ++ p.returned e c action }
        order := by
    intro hnone
    rw [hnone, List.append_nil]
    exact h
  cases action with
  | resolve =>
    unfold Pipeline.returned at keep ⊢
    dsimp only at keep ⊢
    split
    next op result i hop hslot =>
      obtain ⟨op', hop', hmem⟩ := h.replied c _ i hslot rfl
      cases hop.symm.trans hop'
      refine ⟨h.agree, h.issued, h.armed, fun c' op' hop' => List.mem_append_left _ (h.recorded c' op' hop'),
        ?_, h.traced.ret _ hmem, h.done, h.replied⟩
      intro c' op' hcalled
      rcases List.mem_append.mp hcalled with hcalled | hret
      · exact h.called c' op' hcalled
      · cases List.mem_singleton.mp hret
    next hnone =>
      rw [List.append_nil]
      exact h
  | _ => exact keep rfl

/-! ### A call is issued -/

/-- A call is new, and has no id yet. -/
theorem issue_cases {c : Nat} {outgoing : Outgoing} (h : p.master.step (.issue c outgoing) = some t) :
    p.master.calls c = none ∧ t.slots = p.master.slots ∧ t.drawn = p.master.drawn ∧
      ∃ phase, phase ≠ .armed ∧ t.calls = (p.master.setCall c ⟨outgoing, none, phase⟩).calls := by
  rw [ModbusMaster.step] at h
  split at h
  · cases h
  next hnew =>
    have hfresh : p.master.calls c = none :=
      Option.not_isSome_iff_eq_none.mp fun hsome => hnew (.inl hsome)
    split at h <;>
    · cases h
      refine ⟨hfresh, rfl, rfl, _, ?_, rfl⟩
      simp

/-- The pipeline with a new call. -/
def issued (p : Pipeline σ) (t : ModbusMaster Unit Unit) (c : Nat) (op : Operation) : Pipeline σ :=
  { p with
    master := t
    ops := Function.update p.ops c (some op)
    history := p.history ++ [.call c op] }

theorem Wrote.issue {c c' : Nat} {op op' : Operation} {id : Id} {call : Master.Call Unit Unit}
    (h : p.Wrote c' op' id) (hfresh : p.master.calls c = none)
    (hcalls : t.calls = (p.master.setCall c call).calls) : (p.issued t c op).Wrote c' op' id := by
  obtain ⟨hop, call', hcall', hrest⟩ := h
  have hne : c' ≠ c := by
    rintro rfl
    cases hfresh.symm.trans hcall'
  refine ⟨(Function.update_of_ne hne ..).trans hop, call', ?_, hrest⟩
  show t.calls c' = some call'
  rw [hcalls]
  exact ModbusMaster.setCall_of_fresh hfresh hcall'

theorem Ledger.issue (h : Ledger e range apply start init p order) {c : Nat} {op : Operation}
    {m : MasterRequest op.Result} (hframed : op.Framed) (hbuilt : op.request e.checks e.unit = .ok m)
    (hstep : p.master.step (.issue c m.outgoing) = some t) :
    Ledger e range apply start init (p.issued t c op) order := by
  obtain ⟨hfresh, hslots, -, phase, hunarmed, hcalls⟩ := issue_cases hstep
  have huncalled : ∀ op', .call c op' ∉ p.history := by
    intro op' hcalled
    have hsome := h.called c op' hcalled
    rw [hfresh] at hsome
    cases hsome
  have hne : ∀ {c' op'}, p.ops c' = some op' → c' ≠ c := by
    rintro c' op' hop' rfl
    exact huncalled op' (h.recorded c' op' hop')
  have few : FewDrawn p.master (.issue c m.outgoing) := trivial
  refine ⟨⟨h.agree.ids.step few hstep, h.agree.waiters.step hstep⟩, ?_, ?_, ?_, ?_,
    h.traced.call c op huncalled, ?_, ?_⟩
  · intro c' call' hcall'
    rw [show (p.issued t c op).master.calls = t.calls from rfl, hcalls] at hcall'
    rcases ModbusMaster.setCall_cases hcall' with ⟨rfl, rfl⟩ | ⟨hother, hold⟩
    · exact ⟨op, m, Function.update_self .., hframed, hbuilt, rfl⟩
    · obtain ⟨op', m', hop', hrest⟩ := h.issued c' call' hold
      exact ⟨op', m', (Function.update_of_ne hother ..).trans hop', hrest⟩
  · intro c' call' hcall' hphase
    rw [show (p.issued t c op).master.calls = t.calls from rfl, hcalls] at hcall'
    rcases ModbusMaster.setCall_cases hcall' with ⟨rfl, rfl⟩ | ⟨-, hold⟩
    · exact absurd hphase hunarmed
    · exact h.armed c' call' hold hphase
  · intro c' op' hop'
    by_cases hc : c' = c
    · subst hc
      rw [show (p.issued t c' op).ops c' = some op from Function.update_self ..] at hop'
      cases hop'
      exact List.mem_append_right _ (List.mem_singleton_self _)
    · rw [show (p.issued t c op).ops c' = p.ops c' from Function.update_of_ne hc ..] at hop'
      exact List.mem_append_left _ (h.recorded c' op' hop')
  · intro c' op' hcalled
    show (t.calls c').isSome
    rw [hcalls]
    rcases List.mem_append.mp hcalled with hcalled | hnew
    · obtain ⟨call', hcall'⟩ := Option.isSome_iff_exists.mp (h.called c' op' hcalled)
      rw [ModbusMaster.setCall_of_fresh hfresh hcall']
      rfl
    · cases List.mem_singleton.mp hnew
      rw [ModbusMaster.setCall_self]
      rfl
  · intro effect heffect
    obtain ⟨id, hwrote⟩ := h.done effect heffect
    exact ⟨id, hwrote.issue hfresh hcalls⟩
  · intro c' reply i hslot hsource
    rw [show (p.issued t c op).master.slots = t.slots from rfl, hslots] at hslot
    obtain ⟨op', hop', hmem⟩ := h.replied c' reply i hslot hsource
    exact ⟨op', (Function.update_of_ne (hne hop') ..).trans hop', hmem⟩

theorem Flows.issue (h : Flows e p order requests answers) {c : Nat} (op : Operation)
    {outgoing : Outgoing} (hstep : p.master.step (.issue c outgoing) = some t) :
    Flows e (p.issued t c op) order requests answers := by
  obtain ⟨hfresh, -, hdrawn, phase, -, hcalls⟩ := issue_cases hstep
  refine ⟨h.up, h.down, h.asking, h.answering, h.once, h.waiting, ?_, ?_⟩
  · intro r hr
    obtain ⟨op', id, m, hwrote, hrecent, hrest⟩ := h.requested r hr
    exact ⟨op', id, m, hwrote.issue hfresh hcalls, hdrawn ▸ hrecent, hrest⟩
  · intro r hr
    obtain ⟨op', id, answer, hwrote, hrecent, hrest⟩ := h.answered r hr
    exact ⟨op', id, answer, hwrote.issue hfresh hcalls, hdrawn ▸ hrecent, hrest⟩

/-! ### A request is written -/

theorem isFrame_encode (settings : LayerSettings) {adu : ApplicationDataUnit} {tid : UInt16}
    (htid : adu.transaction = some tid) (hlength : adu.data.length ≤ 252) :
    Tcp.IsFrame (encode .tcp settings adu) ⟨adu, encode .tcp settings adu⟩ := by
  refine ⟨tid, htid, hlength, rfl, ?_⟩
  show (Tcp.encode settings.transactionId adu).2 = Tcp.frameBytes tid adu
  rw [Tcp.encode, htid]

/-- A call that has not written its request has none on its way, and has had no effect. -/
theorem Wrote.asked {c : Nat} {op : Operation} {id : Id} (h : p.Wrote c op id)
    {call : Master.Call Unit Unit} (hcall : p.master.calls c = some call) : call.phase.Asked := by
  obtain ⟨-, call', hcall', -, hasked⟩ := h
  cases hcall.symm.trans hcall'
  exact hasked

theorem Flows.ask (h : Flows e p order requests answers) {c : Nat} {op : Operation} {id : Id}
    {m : MasterRequest op.Result} (hwrote : p.Wrote c op id)
    (hrecent : p.master.drawn ≤ id.index + 65535) (hbuilt : op.request e.checks e.unit = .ok m)
    (hasking : c ∉ p.asking) (horder : c ∉ order.map (·.id)) {wire : Wire} (u : FramedDataUnit)
    (hu : u.adu = m.sent (some id.tid)) (hwire : wire.Carries (requests.map (·.2) ++ [u])) :
    Flows e { p with up := wire, asking := p.asking ++ [c] } order (requests ++ [(c, u)])
      answers where
  up := by
    rw [List.map_append]
    exact hwire
  down := h.down
  asking := by rw [h.asking, List.map_append, List.map_singleton]
  answering := h.answering
  once := List.nodup_append.mpr ⟨h.once, List.nodup_singleton c, fun c' hc' c'' hc'' heq =>
    hasking (by rwa [← List.mem_singleton.mp hc'', ← heq])⟩
  waiting c' hc' := by
    rcases List.mem_append.mp hc' with hc' | hc'
    · exact h.waiting c' hc'
    · rw [List.mem_singleton.mp hc']
      exact horder
  requested r hr := by
    rcases List.mem_append.mp hr with hr | hr
    · exact h.requested r hr
    · rw [List.mem_singleton.mp hr]
      exact ⟨op, id, m, hwrote, hrecent, hbuilt, hu⟩
  answered := h.answered

/-! ### The wires -/

theorem left_sublist {α : Type} (label : WireLabel) (l : List α) : label.left l <+ l := by
  cases label with
  | lose i => exact List.eraseIdx_sublist ..
  | _ => exact List.Sublist.refl l

theorem left_map {α β : Type} (label : WireLabel) (f : α → β) (l : List α) :
    (label.left l).map f = label.left (l.map f) := by
  cases label with
  | lose i =>
    simp only [WireLabel.left, List.eraseIdx_eq_take_drop_succ, List.map_append, List.map_take,
      List.map_drop]
  | _ => rfl

theorem Flows.stepUp (h : Flows e p order requests answers) {label : WireLabel} {wire : Wire}
    (hstep : p.up.step label = some wire) :
    Flows e { p with up := wire, asking := label.left p.asking } order (label.left requests)
      answers where
  up := by
    rw [left_map]
    exact h.up.step hstep
  down := h.down
  asking := by rw [h.asking, left_map]
  answering := h.answering
  once := h.once.sublist (left_sublist label _)
  waiting c hc := h.waiting c ((left_sublist label _).subset hc)
  requested r hr := h.requested r ((left_sublist label _).subset hr)
  answered := h.answered

theorem Flows.stepDown (h : Flows e p order requests answers) {label : WireLabel} {wire : Wire}
    (hstep : p.down.step label = some wire) :
    Flows e { p with down := wire, answering := label.left p.answering } order requests
      (label.left answers) where
  up := h.up
  down := by
    rw [left_map]
    exact h.down.step hstep
  asking := h.asking
  answering := by rw [h.answering, left_map]
  once := h.once
  waiting := h.waiting
  requested := h.requested
  answered r hr := h.answered r ((left_sublist label _).subset hr)

/-! ### The slave takes up a request -/

/-- The pipeline after a frame, by the replies of its handler. -/
theorem process_eq {frame : Framing Unit Unit} {n : Nat} {result : Except ModbusError Unit}
    {w' : World σ} {replies : List Bytes}
    (hprocess : processFrame (e.context result) e.customFcs e.models frame.framed p.world =
      (.ok (), w')) (hreplies : w'.replies = p.world.replies ++ replies) :
    p.process e frame n result = { p with
      world := w'
      down := replies.foldl (fun w data => w.write data n result) p.down
      asking := p.asking.tail
      answering := if replies.isEmpty then p.answering else p.answering ++ p.asking.take 1 } := by
  simp only [process, hprocess, hreplies, List.drop_left]

/-- An operation that is ignored does nothing. -/
theorem outcome_none {op : Operation} {s : σ} (h : (op.outcome range apply s).1 = none) :
    (op.outcome range apply s).2 = s := by
  unfold Operation.outcome at h ⊢
  cases hdecision : op.decision range with
  | ignore => rfl
  | refuse code => rfl
  | accept _ =>
    rw [hdecision] at h
    cases h

/-- The first request goes, and has no answer. -/
theorem Flows.drop {r : Nat × FramedDataUnit} (h : Flows e p order (r :: requests) answers)
    {wire : Wire} (hwire : wire.Carries (requests.map (·.2))) (w' : World σ) :
    Flows e { p with world := w', up := wire, asking := p.asking.tail } order requests answers := by
  have hasking : p.asking = r.1 :: requests.map (·.1) := h.asking
  refine ⟨hwire, h.down, ?_, h.answering, h.once.sublist (List.tail_sublist _),
    fun c hc => h.waiting c (List.mem_of_mem_tail hc),
    fun r' hr' => h.requested r' (List.mem_cons_of_mem _ hr'), h.answered⟩
  rw [hasking]
  rfl

/-- The first request takes effect, and is answered. -/
theorem Flows.answer {c : Nat} {u : FramedDataUnit} (h : Flows e p order ((c, u) :: requests) answers)
    {wire down : Wire} (hwire : wire.Carries (requests.map (·.2))) (w' : World σ) {op : Operation}
    {id : Id} (hwrote : p.Wrote c op id) (hrecent : p.master.drawn ≤ id.index + 65535)
    {answer : Operation.Answer} (u' : FramedDataUnit) (htells : e.Tells op id.tid u'.adu answer)
    (hdown : down.Carries (answers.map (·.2) ++ [u'])) :
    Flows e { p with
      world := w', up := wire, down := down, asking := p.asking.tail
      answering := p.answering ++ p.asking.take 1 } (order ++ [⟨c, op, answer⟩]) requests
        (answers ++ [(c, u')]) := by
  have hasking : p.asking = c :: requests.map (·.1) := h.asking
  have hnodup := h.once
  rw [hasking] at hnodup
  refine ⟨hwire, ?_, by rw [hasking]; rfl, ?_, h.once.sublist (List.tail_sublist _), ?_,
    fun r hr => h.requested r (List.mem_cons_of_mem _ hr), ?_⟩
  · rw [List.map_append]
    exact hdown
  · rw [hasking, h.answering, List.map_append]
    rfl
  · intro c' hc' hmem
    rw [List.map_append, List.map_singleton] at hmem
    rcases List.mem_append.mp hmem with hmem | hmem
    · exact h.waiting c' (List.mem_of_mem_tail hc') hmem
    · rw [hasking, List.tail_cons, List.mem_singleton.mp hmem] at hc'
      exact (List.nodup_cons.mp hnodup).1 hc'
  · intro r hr
    rcases List.mem_append.mp hr with hr | hr
    · obtain ⟨op', id', answer', hwrote', hrecent', htells', hmem⟩ := h.answered r hr
      exact ⟨op', id', answer', hwrote', hrecent', htells', List.mem_append_left _ hmem⟩
    · rw [List.mem_singleton.mp hr]
      exact ⟨op, id, answer, hwrote, hrecent, htells,
        List.mem_append_right _ (List.mem_singleton_self _)⟩

/-- An operation takes effect. -/
theorem Ledger.effect (h : Ledger e range apply start init p order) {c : Nat} {op : Operation}
    {id : Id} (hwrote : p.Wrote c op id) (hfresh : c ∉ order.map (·.id)) {answer : Operation.Answer}
    {w' : World σ} (hdoes : Does range apply p.world.state op answer w'.state) :
    Ledger e range apply start init { p with world := w' } (order ++ [⟨c, op, answer⟩]) := by
  refine ⟨h.agree, h.issued, h.armed, h.recorded, h.called,
    h.traced.effect ⟨c, op, answer⟩ (h.recorded c op hwrote.1) hfresh hdoes, ?_, ?_⟩
  · intro effect heffect
    rcases List.mem_append.mp heffect with hold | hnew
    · exact h.done effect hold
    · rw [List.mem_singleton.mp hnew]
      exact ⟨id, hwrote⟩
  · intro c' reply i hslot hsource
    obtain ⟨op', hop', hmem⟩ := h.replied c' reply i hslot hsource
    exact ⟨op', hop', List.mem_append_left _ hmem⟩

theorem process_sound {model : ModbusSlaveModel σ} (hunit : e.unit ≠ 0)
    (hmodel : e.models.find? (fun m => m.unit = e.unit) = some model)
    (himplements : Implements e.checks model apply)
    (ledger : Ledger e model.addressRange apply start init p order)
    (flows : Flows e p order requests answers) {frame : Framing Unit Unit}
    {queue : List (Emit Unit Unit)} (hqueue : p.up.queue = .framing frame :: queue) (n : Nat)
    {result : Except ModbusError Unit} (haccepts : p.down.accepts result = true) :
    ∃ order' requests' answers',
      Ledger e model.addressRange apply start init
        { p.process e frame n result with up := { p.up with queue := queue } } order' ∧
      Flows e { p.process e frame n result with up := { p.up with queue := queue } } order' requests'
        answers' := by
  obtain ⟨frame', later, hframe, hrequests, hcarries⟩ := flows.up.take hqueue
  cases hframe
  cases requests with
  | nil => cases hrequests
  | cons r requests =>
    obtain ⟨c, u⟩ := r
    obtain ⟨hu, rfl⟩ := List.cons.inj hrequests
    obtain ⟨op, id, m, hwrote, hrecent, hbuilt, hadu⟩ := flows.requested (c, u) List.mem_cons_self
    obtain ⟨call, hcall, -⟩ := hwrote.2
    obtain ⟨op', m', hop', hframed, -⟩ := ledger.issued c call hcall
    cases hwrote.1.symm.trans hop'
    have hframe : frame.framed.adu = m.sent (some id.tid) := by
      rw [← hu]
      exact hadu
    have hnew : c ∉ order.map (·.id) := by
      apply flows.waiting c
      rw [flows.asking]
      exact List.mem_cons_self
    obtain ⟨w', hprocess, hstate, hserved⟩ :=
      Ends.served hunit hmodel himplements hframed hbuilt id.tid hframe result p.world
    cases hout : (op.outcome model.addressRange apply p.world.state).1 with
    | none =>
      rw [hout] at hserved
      cases hserved with
      | ignored hreplies =>
        have hnone : w'.replies = p.world.replies ++ [] := by rw [hreplies, List.append_nil]
        rw [process_eq hprocess hnone]
        have hsame : w'.state = p.world.state := hstate.trans (outcome_none hout)
        refine ⟨order, requests, answers, ?_, flows.drop hcarries w'⟩
        exact ⟨ledger.agree, ledger.issued, ledger.armed, ledger.recorded, ledger.called,
          hsame ▸ ledger.traced, ledger.done, ledger.replied⟩
    | some x =>
      rw [hout] at hserved
      cases hserved with
      | answered x adu rest hreplies honce htells =>
        rw [process_eq hprocess hreplies, Wire.foldl_write p.down _ n honce]
        have hdown := flows.down.write (isFrame_encode e.slave htells.transaction
          htells.fits) n haccepts
        have hdoes : Does model.addressRange apply p.world.state op
            ⟨op, some (Operation.seen (some x))⟩ w'.state := ⟨by rw [hout], hstate⟩
        refine ⟨_, requests, _, ?_, flows.answer hcarries w' hwrote hrecent
          ⟨adu, encode .tcp e.slave adu⟩ htells hdown⟩
        have after := ledger.effect hwrote hnew hdoes
        exact ⟨after.agree, after.issued, after.armed, after.recorded, after.called, after.traced,
          after.done, after.replied⟩

/-! ### The master handles a response -/

/-- The waiter that an answer finds is that of its own call. -/
theorem sender_eq (hagree : Agree start p.master) {c : Nat} {op : Operation} {id : Id}
    (hwrote : p.Wrote c op id) (hrecent : p.master.drawn ≤ id.index + 65535)
    {frame : Framing Unit Unit} (htid : frame.adu.transaction = some id.tid) {c' : Nat}
    {verdict : Except ModbusError (Framing Unit Unit)}
    (hroute : p.master.session.route frame = some (c', verdict)) :
    c' = c ∧ ∃ call, p.master.calls c = some call ∧ verdict = call.verdict id.tid frame := by
  obtain ⟨waiter, hwaiter, hkey, rfl, call', id', hcall', hid', hown, rfl⟩ :=
    hagree.waiters.route_eq hroute
  obtain ⟨call, hcall, hid, -⟩ := hwrote.2
  have hof : WaiterKey.of frame.adu = .tid id.tid := by
    rw [WaiterKey.of, htid]
  have htids : id'.tid = id.tid := WaiterKey.tid.inj (hown.symm.trans (hkey.trans hof))
  obtain ⟨call₁, id₁, hcall₁, hid₁, -, harmed, -⟩ := hagree.waiters.waits waiter hwaiter
  cases hcall'.symm.trans hcall₁
  have hrecent' := hagree.ids.recent _ call' id' hcall' (harmed.outstanding.trans hid')
  obtain ⟨hdrawn, hlt⟩ := hagree.ids.drawn c call id hcall hid
  obtain ⟨hdrawn', hlt'⟩ := hagree.ids.drawn _ call' id' hcall' hid'
  have hindex : id'.index = id.index :=
    tidAt_inj hlt' hlt hrecent' hrecent (by rw [← hdrawn', ← hdrawn, htids])
  have hc := hagree.ids.inj _ c call' call id' id hcall' hcall hid' hid hindex
  rw [hc, hcall] at hcall'
  cases hcall'
  exact ⟨hc, call', hcall, by rw [htids]⟩

theorem handle_sound (ledger : Ledger e range apply start init p order)
    (flows : Flows e p order requests answers) {frame : Framing Unit Unit}
    {queue : List (Emit Unit Unit)} (hqueue : p.down.queue = .framing frame :: queue) :
    ∃ answers', Ledger e range apply start init { p with
        master := p.master.handleFrame frame
        down := { p.down with queue := queue }
        answering := p.answering.tail } order ∧
      Flows e { p with
        master := p.master.handleFrame frame
        down := { p.down with queue := queue }
        answering := p.answering.tail } order requests answers' := by
  obtain ⟨frame', later, hframe, hanswers, hcarries⟩ := flows.down.take hqueue
  cases hframe
  cases answers with
  | nil => cases hanswers
  | cons r answers =>
    obtain ⟨c, u⟩ := r
    obtain ⟨hu, rfl⟩ := List.cons.inj hanswers
    obtain ⟨op, id, answer, hwrote, hrecent, htells, hmem⟩ :=
      flows.answered (c, u) List.mem_cons_self
    have hadu : frame.adu = u.adu := congrArg FramedDataUnit.adu hu.symm
    obtain ⟨hcalls, -, hdrawn⟩ := p.master.handleFrame_calls frame
    have hpersists : Persists p.master (p.master.handleFrame frame) := .of_calls hcalls
    have few : FewDrawn p.master (.frame frame) := trivial
    have hagree : Agree start (p.master.handleFrame frame) :=
      ⟨ledger.agree.ids.step few rfl, ledger.agree.waiters.handleFrame frame⟩
    have hreplied : ∀ c' reply i, (p.master.handleFrame frame).slots c' = .filled reply →
        reply.source = some i →
          ∃ op, p.ops c' = some op ∧ ⟨c', op, e.answer op reply.result⟩ ∈ order := by
      intro c' reply i hslot hsource
      cases hroute : p.master.session.route frame with
      | none =>
        rw [ModbusMaster.handleFrame_of_none hroute] at hslot
        exact ledger.replied c' reply i hslot hsource
      | some sent =>
        obtain ⟨c₁, verdict⟩ := sent
        rw [ModbusMaster.handleFrame_slots hroute] at hslot
        obtain ⟨rfl, call, hcall, rfl⟩ := sender_eq ledger.agree hwrote hrecent
          (by rw [hadu]; exact htells.transaction) hroute
        split at hslot
        next hc =>
          cases List.mem_singleton.mp hc
          cases hslot
          obtain ⟨op', m, hop', -, hbuilt, houtgoing⟩ := ledger.issued c' call hcall
          cases hop'.symm.trans hwrote.1
          refine ⟨op, hwrote.1, ?_⟩
          rw [htells.told m call frame hbuilt houtgoing hadu]
          exact hmem
        next => exact ledger.replied c' reply i hslot hsource
    have after := ledger.move hpersists hagree hreplied
    have still := flows.move hpersists fun _ _ _ _ _ _ hold => hdrawn ▸ hold
    refine ⟨answers, ⟨after.agree, after.issued, after.armed, after.recorded, after.called,
      after.traced, after.done, after.replied⟩, still.up, hcarries, still.asking, ?_, still.once, still.waiting,
      still.requested, fun r hr => still.answered r (List.mem_cons_of_mem _ hr)⟩
    show p.answering.tail = _
    rw [flows.answering]
    rfl

/-! ### A request is written, by the master -/

/-- The write of a call, which had armed its waiter. -/
theorem write_cases {c : Nat} {result : Except ModbusError Unit}
    (h : p.master.step (.call c (.write result)) = some t) :
    ∃ call phase, p.master.calls c = some call ∧ call.phase = .armed ∧ phase.Asked ∧
      t = p.master.setCall c { call with phase := phase } := by
  obtain ⟨call, hcall, hstep⟩ := Option.bind_eq_some_iff.mp h
  rcases ModbusMaster.stepCall_cases hstep with ⟨h, -⟩ | ⟨h, -⟩ | ⟨_, h, -⟩ |
    ⟨hphase, ⟨-, rfl⟩ | ⟨err, -, rfl⟩⟩ | ⟨h, -⟩ | ⟨_, _, h, -⟩ | ⟨h, -⟩
  case inr.inr.inr.inl.inl => exact ⟨call, .awaiting, hcall, hphase, trivial, rfl⟩
  case inr.inr.inr.inl.inr => exact ⟨call, .failed err, hcall, hphase, trivial, rfl⟩
  all_goals cases h

theorem write_sound (model : ModbusSlaveModel σ) (ledger : Ledger e range apply start init p order)
    (flows : Flows e p order requests answers) {c n : Nat} {result : Except ModbusError Unit}
    (haccepts : p.up.accepts result = true)
    (hstep : p.master.step (.call c (.write result)) = some t) :
    ∃ requests', Ledger e range apply start init { p with
        master := t
        up := p.up.write (p.requestBytes e c) n result
        asking := p.asking ++ [c] } order ∧
      Flows e { p with
        master := t
        up := p.up.write (p.requestBytes e c) n result
        asking := p.asking ++ [c] } order requests' answers := by
  obtain ⟨call, phase, hcall, hphase, hasked, ht⟩ := write_cases hstep
  obtain ⟨id, hid⟩ := Option.isSome_iff_exists.mp (ledger.armed c call hcall hphase)
  obtain ⟨op, m, hop, hframed, hbuilt, houtgoing⟩ := ledger.issued c call hcall
  have few : FewDrawn p.master (.call c (.write result)) := trivial
  have hagree : Agree start t :=
    ⟨ledger.agree.ids.step few hstep, ledger.agree.waiters.step hstep⟩
  obtain ⟨call', hcall', hmoved⟩ := Option.bind_eq_some_iff.mp hstep
  have hmoves := Moves.stepCall ledger.agree.waiters hcall' hmoved
  have hdrawn : t.drawn = p.master.drawn := by rw [ht]; rfl
  -- nothing of the call has been written yet
  have hunasked : ∀ {op' id'}, ¬ p.Wrote c op' id' := by
    intro op' id' hwrote
    have hdone := hwrote.asked hcall
    rw [hphase] at hdone
    exact hdone
  have hasking : c ∉ p.asking := by
    rw [flows.asking]
    intro hmem
    obtain ⟨r, hr, rfl⟩ := List.mem_map.mp hmem
    obtain ⟨op', id', m', hwrote, -⟩ := flows.requested r hr
    exact hunasked hwrote
  have horder : c ∉ order.map (·.id) := by
    intro hmem
    obtain ⟨effect, heffect, rfl⟩ := List.mem_map.mp hmem
    obtain ⟨id', hwrote⟩ := ledger.done effect heffect
    exact hunasked hwrote
  have hwrote : Pipeline.Wrote { p with master := t } c op id := by
    refine ⟨hop, { call with phase := phase }, ?_, hid, hasked⟩
    show t.calls c = _
    rw [ht]
    exact ModbusMaster.setCall_self
  have hrecent : p.master.drawn ≤ id.index + 65535 := by
    have harmed : call.phase.Armed := by rw [hphase]; trivial
    exact ledger.agree.ids.recent c call id hcall (harmed.outstanding.trans hid)
  have hprepared := prepared_operation (e.context result) e.customFcs model e.unit hframed hbuilt
  have hsent := Link.sent_eq (some id.tid) hprepared.plain
  have hfits := hprepared.sent
  rw [hprepared.plain] at hfits
  have hbytes : p.requestBytes e c = encode .tcp e.master (m.sent (some id.tid)) := by
    obtain ⟨outgoing, callId, callPhase⟩ := call
    obtain rfl : callId = some id := hid
    obtain rfl : outgoing = m.outgoing := houtgoing
    rw [requestBytes, hcall]
    rfl
  have hframe : Tcp.IsFrame (p.requestBytes e c) ⟨m.sent (some id.tid), p.requestBytes e c⟩ := by
    rw [hbytes]
    exact isFrame_encode e.master (by rw [hsent]) (by rw [hsent]; exact hfits.length)
  have after := ledger.moves hmoves hagree
  have still := flows.move hmoves.toPersists fun _ _ _ _ _ _ hold => hdrawn ▸ hold
  refine ⟨_, ⟨after.agree, after.issued, after.armed, after.recorded, after.called, after.traced,
    after.done, after.replied⟩, still.ask hwrote (hdrawn ▸ hrecent) hbuilt hasking horder
      ⟨m.sent (some id.tid), p.requestBytes e c⟩ rfl ?_⟩
  exact flows.up.write hframe n haccepts

/-! ## Runs -/

/-- A call is issued for an operation that fits its frame. Since the id of a call that is outstanding,
or whose request or response is on its way, fewer than 65535 ids have been drawn when the next is. And a
`flush()` finds the buffer empty; there is none in a concurrent master. -/
def Calm (p : Pipeline σ) : PipelineLabel → Prop
  | .issue _ op => op.Framed
  | .call c .allocate => FewDrawn p.master (.call c .allocate) ∧
    ∀ c' ∈ p.asking ++ p.answering, ∀ call id, p.master.calls c' = some call → call.id = some id →
      p.master.drawn < id.index + 65535
  | .call _ .lock => ¬ (p.master.concurrent ∨ p.master.closed) → p.down.buffer = none
  | _ => True

/-- The calls and the wires are as the effects in some order make them. -/
def Sound (e : Ends σ) (range : AddressRange)
    (apply : (op : Operation) → σ → Except ModbusError op.Result × σ) (start : Nat) (init : σ)
    (p : Pipeline σ) : Prop :=
  ∃ order requests answers,
    Ledger e range apply start init p order ∧ Flows e p order requests answers

/-- A flush of an empty buffer changes nothing. -/
theorem flushed_eq {c : Nat} {action : Action} (calm : p.Calm (.call c action)) :
    p.flushed action = p.down := by
  cases action with
  | lock =>
    rw [flushed]
    split
    next => rfl
    next hflush =>
      have hempty : p.down.buffer = none := calm hflush
      obtain ⟨master, ops, up, world, ⟨bytes, buffer, queue, broken⟩, asking, answering, history⟩ := p
      obtain rfl : buffer = none := hempty
      rfl
  | _ => rfl

/-- A step of a call that is not its write. -/
theorem call_sound (ledger : Ledger e range apply start init p order)
    (flows : Flows e p order requests answers) {c : Nat} {action : Action}
    (calm : p.Calm (.call c action)) (hstep : p.master.step (.call c action) = some t) :
    Ledger e range apply start init { p with
        master := t
        down := p.flushed action
        history := p.history ++ p.returned e c action } order ∧
      Flows e { p with
        master := t
        down := p.flushed action
        history := p.history ++ p.returned e c action } order requests answers := by
  obtain ⟨call, hcall, hmoved⟩ := Option.bind_eq_some_iff.mp hstep
  have few : FewDrawn p.master (.call c action) := by
    cases action with
    | allocate => exact calm.1
    | _ => trivial
  have hagree : Agree start t :=
    ⟨ledger.agree.ids.step few hstep, ledger.agree.waiters.step hstep⟩
  have hmoves := Moves.stepCall ledger.agree.waiters hcall hmoved
  have hdrawn : ∀ c' ∈ p.asking ++ p.answering, ∀ call id, p.master.calls c' = some call →
      call.id = some id → p.master.drawn ≤ id.index + 65535 → t.drawn ≤ id.index + 65535 := by
    intro c' hc' call' id hcall' hid hold
    rcases ModbusMaster.stepCall_cases hmoved with ⟨-, -, -, ⟨-, rfl⟩ | ⟨-, rfl⟩⟩ | ⟨rfl, -, rfl⟩ |
      ⟨_, -, -, -, rfl⟩ | ⟨-, ⟨-, rfl⟩ | ⟨_, -, rfl⟩⟩ | ⟨-, -, -, rfl⟩ | ⟨_, _, -, -, -, rfl⟩ |
      ⟨-, -, ⟨_, -, rfl⟩ | ⟨-, rfl⟩⟩
    case inr.inl => exact calm.2 c' hc' call' id hcall' hid
    all_goals exact hold
  have after := (ledger.returned c action).moves hmoves hagree
  have still := flows.move hmoves.toPersists hdrawn
  rw [flushed_eq calm]
  exact ⟨after, still.up, still.down, still.asking, still.answering, still.once, still.waiting,
    still.requested, still.answered⟩

/-- A step of a call that is not its write is a step of the master. -/
theorem step_call (c : Nat) (action : Action) : p.step e (.call c action) = none ∨
    p.step e (.call c action) = (p.master.step (.call c action)).map fun master => { p with
      master := master
      down := p.flushed action
      history := p.history ++ p.returned e c action } := by
  cases action with
  | write result => exact .inl rfl
  | _ => exact .inr rfl

theorem step_sound {model : ModbusSlaveModel σ} (hunit : e.unit ≠ 0)
    (hmodel : e.models.find? (fun m => m.unit = e.unit) = some model)
    (himplements : Implements e.checks model apply) {q : Pipeline σ} {label : PipelineLabel}
    (sound : Sound e model.addressRange apply start init p) (calm : p.Calm label)
    (hstep : p.step e label = some q) : Sound e model.addressRange apply start init q := by
  obtain ⟨order, requests, answers, ledger, flows⟩ := sound
  cases label with
  | issue c op =>
    rw [Pipeline.step] at hstep
    split at hstep
    next => cases hstep
    next m hbuilt =>
      obtain ⟨t, hissue, rfl⟩ := Option.map_eq_some_iff.mp hstep
      exact ⟨order, requests, answers, ledger.issue calm hbuilt hissue, flows.issue op hissue⟩
  | call c action =>
    rcases step_call (e := e) (p := p) c action with hnone | hmaster
    · rw [hnone] at hstep
      cases hstep
    · rw [hmaster] at hstep
      obtain ⟨t, hmoved, rfl⟩ := Option.map_eq_some_iff.mp hstep
      obtain ⟨after, still⟩ := call_sound ledger flows calm hmoved
      exact ⟨order, requests, answers, after, still⟩
  | write c n result =>
    rw [Pipeline.step] at hstep
    split at hstep
    next haccepts =>
      obtain ⟨t, hmoved, rfl⟩ := Option.map_eq_some_iff.mp hstep
      obtain ⟨requests', after, still⟩ := write_sound model ledger flows haccepts hmoved
      exact ⟨order, requests', answers, after, still⟩
    next => cases hstep
  | up label =>
    obtain ⟨wire, hwire, rfl⟩ := Option.map_eq_some_iff.mp hstep
    refine ⟨order, _, answers, ?_, flows.stepUp hwire⟩
    exact ⟨ledger.agree, ledger.issued, ledger.armed, ledger.recorded, ledger.called, ledger.traced,
      ledger.done, ledger.replied⟩
  | process n result =>
    rw [Pipeline.step] at hstep
    split at hstep
    next => cases hstep
    next err queue hqueue =>
      -- the slave's layer publishes no framing error
      obtain ⟨frame, later, hframe, -⟩ := flows.up.take hqueue
      cases hframe
    next frame queue hqueue =>
      split at hstep
      next haccepts =>
        cases hstep
        exact process_sound hunit hmodel himplements ledger flows hqueue n haccepts
      next => cases hstep
  | down label =>
    obtain ⟨wire, hwire, rfl⟩ := Option.map_eq_some_iff.mp hstep
    refine ⟨order, requests, _, ?_, flows.stepDown hwire⟩
    exact ⟨ledger.agree, ledger.issued, ledger.armed, ledger.recorded, ledger.called, ledger.traced,
      ledger.done, ledger.replied⟩
  | handle =>
    rw [Pipeline.step] at hstep
    split at hstep
    next => cases hstep
    next err queue hqueue =>
      -- nor does the master's
      obtain ⟨frame, later, hframe, -⟩ := flows.down.take hqueue
      cases hframe
    next frame queue hqueue =>
      cases hstep
      obtain ⟨answers', after, still⟩ := handle_sound ledger flows hqueue
      exact ⟨order, requests, answers', after, still⟩
  | error err =>
    rw [Pipeline.step] at hstep
    obtain ⟨t, hmoved, rfl⟩ := Option.map_eq_some_iff.mp hstep
    have few : FewDrawn p.master (.error err) := trivial
    have hagree : Agree start t :=
      ⟨ledger.agree.ids.step few hmoved, ledger.agree.waiters.step hmoved⟩
    cases hmoved
    exact ⟨order, requests, answers, ledger.moves (.stopAll p.master err) hagree,
      flows.move (.of_calls rfl) fun _ _ _ _ _ _ hold => hold⟩
  | closed =>
    rw [Pipeline.step] at hstep
    obtain ⟨t, hmoved, rfl⟩ := Option.map_eq_some_iff.mp hstep
    have few : FewDrawn p.master .closed := trivial
    have hagree : Agree start t :=
      ⟨ledger.agree.ids.step few hmoved, ledger.agree.waiters.step hmoved⟩
    cases hmoved
    exact ⟨order, requests, answers,
      ledger.moves ⟨.of_calls rfl, fun _ _ _ hslot _ => hslot⟩ hagree,
      flows.move (.of_calls rfl) fun _ _ _ _ _ _ hold => hold⟩

/-- A master that has just been opened, and a connection on which nothing has happened. -/
def opened (concurrent : Bool) (start : Nat) (world : World σ) : Pipeline σ where
  master := .opened concurrent start
  world := world

theorem opened_sound (e : Ends σ) (range : AddressRange)
    (apply : (op : Operation) → σ → Except ModbusError op.Result × σ) (concurrent : Bool)
    (start : Nat) (world : World σ) :
    Sound e range apply start world.state (opened concurrent start world) := by
  have hcalls : ∀ c call, (opened concurrent start world).master.calls c ≠ some call := by
    intro c call h
    cases h
  have hops : ∀ c op, (opened concurrent start world).ops c ≠ some op := by
    intro c op h
    cases h
  have hslots : ∀ c reply, (opened concurrent start world).master.slots c ≠ .filled reply := by
    intro c reply h
    cases h
  refine ⟨[], [], [], ?_, ?_⟩
  · exact {
      agree := .opened concurrent start
      issued := fun c call h => absurd h (hcalls c call)
      armed := fun c call h => absurd h (hcalls c call)
      recorded := fun c op h => absurd h (hops c op)
      called := fun _ _ h => absurd h List.not_mem_nil
      traced := .init
      done := List.forall_mem_nil _
      replied := fun c reply _ h => absurd h (hslots c reply) }
  · exact {
      up := .empty
      down := .empty
      asking := rfl
      answering := rfl
      once := List.nodup_nil
      waiting := List.forall_mem_nil _
      requested := List.forall_mem_nil _
      answered := List.forall_mem_nil _ }

/-- **The effects of a run**, in their order, are those that its calls and its slave show. -/
theorem traced_run {model : ModbusSlaveModel σ} (hunit : e.unit ≠ 0)
    (hmodel : e.models.find? (fun m => m.unit = e.unit) = some model)
    (himplements : Implements e.checks model apply) {concurrent : Bool} {world : World σ}
    {labels : List PipelineLabel} (run : exec (step e) (opened concurrent start world) labels = some p)
    (calm : Meets (step e) Calm (opened concurrent start world) labels) :
    ∃ order, Traced (Does model.addressRange apply) world.state p.history order p.world.state := by
  obtain ⟨order, _, _, ledger, -⟩ : Sound e model.addressRange apply start world.state p :=
    exec_invariant (fun _ _ _ sound calm hstep => step_sound hunit hmodel himplements sound calm hstep)
      run calm (opened_sound e model.addressRange apply concurrent start world)
  exact ⟨order, ledger.traced⟩

/-! ### Short runs -/

/-- A step of the pipeline is a step of its master, or leaves the master. -/
theorem step_master {q : Pipeline σ} {label : PipelineLabel} (h : p.step e label = some q) :
    q.master = p.master ∨ ∃ l, p.master.step l = some q.master := by
  cases label with
  | issue c op =>
    rw [Pipeline.step] at h
    split at h
    next => cases h
    next m hbuilt =>
      obtain ⟨t, ht, rfl⟩ := Option.map_eq_some_iff.mp h
      exact .inr ⟨_, ht⟩
  | call c action =>
    rcases step_call (e := e) (p := p) c action with hnone | hmaster
    · rw [hnone] at h
      cases h
    · rw [hmaster] at h
      obtain ⟨t, ht, rfl⟩ := Option.map_eq_some_iff.mp h
      exact .inr ⟨_, ht⟩
  | write c n result =>
    rw [Pipeline.step] at h
    split at h
    next =>
      obtain ⟨t, ht, rfl⟩ := Option.map_eq_some_iff.mp h
      exact .inr ⟨_, ht⟩
    next => cases h
  | up label =>
    obtain ⟨wire, -, rfl⟩ := Option.map_eq_some_iff.mp h
    exact .inl rfl
  | process n result =>
    rw [Pipeline.step] at h
    split at h
    next => cases h
    next =>
      cases h
      exact .inl rfl
    next =>
      split at h
      next =>
        cases h
        exact .inl rfl
      next => cases h
  | down label =>
    obtain ⟨wire, -, rfl⟩ := Option.map_eq_some_iff.mp h
    exact .inl rfl
  | handle =>
    rw [Pipeline.step] at h
    split at h
    next => cases h
    next err queue hqueue =>
      cases h
      exact .inr ⟨.error err, rfl⟩
    next frame queue hqueue =>
      cases h
      exact .inr ⟨.frame frame, rfl⟩
  | error err =>
    rw [Pipeline.step] at h
    obtain ⟨t, ht, rfl⟩ := Option.map_eq_some_iff.mp h
    exact .inr ⟨_, ht⟩
  | closed =>
    rw [Pipeline.step] at h
    obtain ⟨t, ht, rfl⟩ := Option.map_eq_some_iff.mp h
    exact .inr ⟨_, ht⟩

/-- No step makes a concurrent master a FIFO master. -/
theorem step_concurrent {m : ModbusMaster Unit Unit} {label : Label Unit Unit}
    (h : m.step label = some t) : t.concurrent = m.concurrent := by
  cases label with
  | issue c outgoing =>
    rw [ModbusMaster.step] at h
    split at h
    · cases h
    split at h <;>
    · cases h
      rfl
  | call c action =>
    obtain ⟨call, -, hstep⟩ := Option.bind_eq_some_iff.mp h
    rcases ModbusMaster.stepCall_cases hstep with ⟨-, -, -, ⟨-, rfl⟩ | ⟨-, rfl⟩⟩ | ⟨-, -, rfl⟩ |
      ⟨_, -, -, -, rfl⟩ | ⟨-, ⟨-, rfl⟩ | ⟨_, -, rfl⟩⟩ | ⟨-, -, -, rfl⟩ | ⟨_, _, -, -, -, rfl⟩ |
      ⟨-, -, ⟨_, -, rfl⟩ | ⟨-, rfl⟩⟩ <;> rfl
  | frame frame =>
    cases h
    exact (m.handleFrame_lock frame).1
  | error err =>
    cases h
    rfl
  | closed =>
    cases h
    rfl

/-- A run of a concurrent master that is short enough is calm. -/
theorem calm_of_short {labels : List PipelineLabel} (hconcurrent : p.master.concurrent = true)
    (hframed : ∀ c op, .issue c op ∈ labels → op.Framed)
    (hshort : p.master.drawn + labels.length ≤ 65535) : Meets (step e) Calm p labels := by
  induction labels generalizing p with
  | nil => trivial
  | cons label labels ih =>
    rw [List.length_cons] at hshort
    constructor
    · cases label with
      | issue c op => exact hframed c op List.mem_cons_self
      | call c action =>
        cases action with
        | lock => exact fun hfifo => absurd (.inl hconcurrent) hfifo
        | allocate =>
          constructor
          · intro _ _ id _ _
            omega
          · intro _ _ _ id _ _
            omega
        | _ => trivial
      | _ => trivial
    · intro q hq
      apply ih
      · rcases step_master hq with hsame | ⟨l, hl⟩
        · rw [hsame, hconcurrent]
        · rw [step_concurrent hl, hconcurrent]
      · exact fun c op hmem => hframed c op (List.mem_cons_of_mem _ hmem)
      · rcases step_master hq with hsame | ⟨l, hl⟩
        · rw [hsame]
          omega
        · have := ModbusMaster.step_drawn hl
          omega

/-! ### The theorem -/

/-- The interop slave, alone at its end. -/
def interop : Ends SimpleModel := ⟨false, 1, {}, {}, fun _ => none, [SimpleModel.model]⟩

/-- A write and a read at once: the read is written first, and the chunks of the requests are cut inside
the second. -/
def crossing : List PipelineLabel :=
  [.issue 0 (.writeSingleRegister 1 7), .issue 1 (.readHoldingRegisters 1 1),
    .call 0 .lock, .call 0 .allocate, .call 0 .arm, .call 1 .lock, .call 1 .allocate, .call 1 .arm,
    .write 1 0 (.ok ()), .write 0 0 (.ok ()), .up (.read 17), .process 0 (.ok ()), .up (.read 7),
    .process 0 (.ok ()), .down (.read 30), .handle, .handle, .call 0 .resolve, .call 1 .resolve]

theorem crossing_calm : Meets (step interop) Calm
    (opened true 65533 ⟨SimpleModel.populated, [], []⟩) crossing := by
  apply calm_of_short rfl
  · intro c op hmem
    simp only [crossing, List.mem_cons, PipelineLabel.issue.injEq, reduceCtorEq, List.not_mem_nil,
      or_false] at hmem
    rcases hmem with ⟨-, rfl⟩ | ⟨-, rfl⟩
    · trivial
    · exact fun _ => by decide
  · decide

end Pipeline

end RsModbus
