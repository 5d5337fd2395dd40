import RsModbus.Laws.Pipeline

/-!
# The interop slave is a shared memory

* `Pipeline.read_returns_last_write`: of calls at once on one connection to the interop slave, a read
  that is called when a write has returned gives what was written, unless another write may come
  between them.

What the callers see of the interop slave is linearizable, with respect to the memory its maps are
(`shared_memory`); the law of the last write is read off an order of the calls.
-/

namespace RsModbus

open Library Master Slave
open scoped List

namespace Pipeline

/-- What the interop slave does, its memory does. -/
theorem does_memory {s t : SimpleModel} {op : Operation} {answer : Operation.Answer}
    (h : Does SimpleModel.model.addressRange SimpleModel.apply s op answer t) :
    Does SimpleModel.model.addressRange Memory.succeed s.memory op answer t.memory := by
  obtain ⟨rfl, rfl⟩ := h
  obtain ⟨hresult, hmemory⟩ := SimpleModel.memory_outcome op s
  exact ⟨by rw [hresult], hmemory⟩

section Memories

variable {range : AddressRange} {s t u : Memory} {op : Operation} {answer : Operation.Answer}

/-- What an operation that succeeds at a memory returns, and what it leaves. -/
theorem does_ok {result : op.Result}
    (h : Does range Memory.succeed s op ⟨op, some (.ok result)⟩ t) :
    op.decision range = .accept () ∧ result = (s.apply op).1 ∧ t = (s.apply op).2 := by
  obtain ⟨hanswer, rfl⟩ := h
  have hseen := Option.some.inj (eq_of_heq (Sigma.mk.inj hanswer).2)
  unfold Operation.outcome at hseen ⊢
  cases hdecision : op.decision range with
  | ignore =>
    rw [hdecision] at hseen
    cases hseen
  | refuse code =>
    rw [hdecision] at hseen
    cases hseen
  | accept _ =>
    rw [hdecision] at hseen
    exact ⟨rfl, Except.ok.inj hseen, rfl⟩

/-- A write of registers that succeeds leaves them as they were written. -/
theorem does_write {a : UInt16} {vs : List UInt16}
    (h : Does range Memory.succeed s (.writeMultipleRegisters a vs)
      ⟨.writeMultipleRegisters a vs, some (.ok vs)⟩ t) :
    vs.length ≤ 123 ∧ readCells t.holdingRegisters (offset a) vs.length = vs := by
  obtain ⟨hdecision, -, rfl⟩ := does_ok h
  have hmax : vs.length ≤ 123 := by
    simp only [Operation.decision] at hdecision
    split at hdecision
    · cases hdecision
    unfold Operation.window at hdecision
    split at hdecision
    next hcount => exact hcount.2
    next => cases hdecision
  exact ⟨hmax, readCells_writeCells fun i hi j hj => offset_injective (by omega) (by omega)⟩

end Memories

variable {e : Ends SimpleModel} {p : Pipeline SimpleModel}

/-- The interop slave, seen as a memory. -/
theorem shared_memory (hunit : e.unit ≠ 0)
    (hmodel : e.models.find? (fun m => m.unit = e.unit) = some SimpleModel.model)
    {concurrent : Bool} {start : Nat} {world : World SimpleModel} {labels : List PipelineLabel}
    (run : exec (step e) (opened concurrent start world) labels = some p)
    (calm : Meets (step e) Calm (opened concurrent start world) labels) :
    ∃ order, Linearization (Does SimpleModel.model.addressRange Memory.succeed) world.state.memory
      p.history order := by
  obtain ⟨order, traced⟩ := traced_run hunit hmodel (SimpleModel.implements e.checks) run calm
  exact ⟨order, (traced.simulate SimpleModel.memory fun _ _ _ _ => does_memory).linearization⟩

/-- What a memory gives a read that is called when a write has returned. -/
theorem read_of_linearization {range : AddressRange} {init : Memory}
    {history : List (Event Nat Operation Operation.Answer)}
    {order : List (Effect Nat Operation Operation.Answer)}
    (h : Linearization (Does range Memory.succeed) init history order) {c c' : Nat} {a n : UInt16}
    {vs values : List UInt16} (hn : n.toNat = vs.length)
    (hbefore : [.ret c ⟨.writeMultipleRegisters a vs, some (.ok vs)⟩,
      .call c' (.readHoldingRegisters a n)] <+ history)
    (hread : .ret c' ⟨.readHoldingRegisters a n, some (.ok values)⟩ ∈ history)
    (hothers : ∀ c₁ op, .call c₁ op ∈ history → c₁ ≠ c →
      (∃ i < vs.length, op.Overwrites (offset a i)) →
        ∃ answer op', [.ret c₁ answer, .call c op'] <+ history) : values = vs := by
  obtain ⟨write, hwrite, hc, hwritten⟩ := h.complete c _ (hbefore.subset List.mem_cons_self)
  obtain ⟨read, hmem, hc', hvalues⟩ := h.complete c' _ hread
  have hpair := h.realTime _ _ _ _ hbefore (List.mem_map.mpr ⟨read, hmem, hc'⟩)
  obtain ⟨before, first, middle, second, after, rfl, hfirst, hsecond, hmiddle⟩ := h.between hpair
  have heq : first = write := List.inj_on_of_nodup_map h.once (by simp) hwrite (hfirst.trans hc.symm)
  have heq' : second = read := List.inj_on_of_nodup_map h.once (by simp) hmem (hsecond.trans hc'.symm)
  subst heq heq'
  obtain ⟨final, hexecutes⟩ := h.legal
  obtain ⟨s₁, -, hrest⟩ := hexecutes.split
  obtain ⟨s₂, hdoes, hrest⟩ := hrest.first
  obtain ⟨s₃, hbetween, hrest⟩ := hrest.split
  obtain ⟨s₄, hdoes', -⟩ := hrest.first
  rw [hwritten] at hdoes
  rw [hvalues] at hdoes'
  have hop : first.op = .writeMultipleRegisters a vs := (Sigma.mk.inj hdoes.1).1.symm
  have hop' : second.op = .readHoldingRegisters a n := (Sigma.mk.inj hdoes'.1).1.symm
  rw [hop] at hdoes
  rw [hop'] at hdoes'
  obtain ⟨hmax, hcells⟩ := does_write hdoes
  obtain ⟨-, hresult, -⟩ := does_ok hdoes'
  -- between the two, nothing overwrites a register
  have hkept : ∀ i < vs.length,
      s₃.holdingRegisters (offset a i) = s₂.holdingRegisters (offset a i) := by
    intro i hi
    refine hbetween.invariant (P := fun s => s.holdingRegisters (offset a i) = _) ?_ rfl
    intro f hf s t hs hstep
    obtain ⟨hne, hlate⟩ := hmiddle f hf
    have huntouched : ¬ f.op.Overwrites (offset a i) := by
      intro hover
      have hcalled := h.called f (by simp [hf])
      obtain ⟨answer, op', hearly⟩ := hothers f.id f.op hcalled hne ⟨i, hi, hover⟩
      exact hlate (h.realTime _ _ _ _ hearly (by simp [hfirst]))
    rw [hstep.2, Memory.outcome_frame huntouched, hs]
  rw [hresult, Memory.apply, hn, readCells_congr hkept, hcells]

/-- A call up to its write. -/
private def writing (c : Nat) (op : Operation) : List PipelineLabel :=
  [.issue c op, .call c .lock, .call c .allocate, .call c .arm, .write c 0 (.ok ())]

/-- A request is taken up, and its response handled. -/
private def replying : List PipelineLabel :=
  [.up (.read 100), .process 0 (.ok ()), .down (.read 100), .handle]

/-- Two registers are written; then they are read while their neighbour is written. -/
private def rereading : List PipelineLabel :=
  writing 0 (.writeMultipleRegisters 10 [1, 2]) ++ replying ++ [.call 0 .resolve] ++
    writing 1 (.writeSingleRegister 12 3) ++ writing 2 (.readHoldingRegisters 10 2) ++ replying ++
      [.process 0 (.ok ()), .down (.read 100), .handle, .call 2 .resolve]

private theorem rereading_calm : Meets (step interop) Calm
    (opened true 0 ⟨SimpleModel.new, [], []⟩) rereading := by
  apply calm_of_short rfl
  · intro c op hmem
    simp only [rereading, writing, replying, List.cons_append, List.nil_append, List.mem_cons,
      PipelineLabel.issue.injEq, reduceCtorEq, List.not_mem_nil, false_or, or_false] at hmem
    rcases hmem with ⟨-, rfl⟩ | ⟨-, rfl⟩ | ⟨-, rfl⟩
    · exact ⟨(by decide : 2 ≤ 123), (by decide : 10 + 2 ≤ 65535)⟩
    · trivial
    · exact fun _ => by decide
  · decide

end Pipeline

end RsModbus
