import RsModbus.Laws.AddressLocks
import RsModbus.Slave.Model
import RsModbus.Slave.RegisterWrites

/-!
# Lost updates

`registerWrites_serial`: in every run of concurrent FC6, FC16, FC22 and FC23 requests, the registers
are those of a sequential execution of the writes made so far, each request's in its own order, as
long as no FC6 or FC16 writes a register between the read and the write of an FC22 and changes a bit
that the FC22 keeps. FC6 and FC16 take no address locks, so the locks do not keep them out
(`registerWrite_lost`).
-/

namespace RsModbus.Slave

open Library

/-! ## One request alone -/

section Alone

/-- A model that keeps registers, reads them and writes one at a time, and has the default
`write_multiple_registers` and `mask_write_register`. -/
def registerModel (unit : UInt8) (addressRange : AddressRange) :
    ModbusSlaveModel (UInt16 → UInt16) where
  unit := unit
  addressRange := addressRange
  implemented
    | .readHoldingRegisters address length => some fun registers =>
      (.ok ((List.range length.toNat).map fun i => registers (address + UInt16.ofNat i)), registers)
    | .writeSingleRegister address value => some fun registers =>
      (.ok (), Function.update registers address value)
    | _ => none

variable {unit : UInt8} {addressRange : AddressRange} {checks : Bool}

/-- The default `write_multiple_registers` makes one write after the other. -/
theorem writeEach_registerModel {address : UInt16} (values : List UInt16) (i : Nat)
    (w : World (UInt16 → UInt16)) (hfits : address.toNat + (i + values.length) ≤ 65536) :
    ModbusSlaveModel.writeEach checks (registerModel unit addressRange).writeSingleRegister address i
      values w = (.ok (.ok ()), ⟨Update.replay w.state (((values.zipIdx i).map fun (value, i) =>
        RegisterOp.write (address + UInt16.ofNat i) value).map RegisterOp.update), w.calls, w.replies⟩) := by
  induction values generalizing i w with
  | nil => rfl
  | cons value values ih =>
    rw [List.length_cons] at hfits
    have hadd : addU16 checks address (UInt16.ofNat i) = .ok (address + UInt16.ofNat i) := by
      apply addU16_of_lt
      have hi : i < 65536 := by omega
      rw [UInt16.toNat_ofNat_of_lt' hi]
      omega
    rw [ModbusSlaveModel.writeEach, hadd, SlaveM.bind_of_ok (SlaveM.lift_ok _ w)]
    exact ih (i + 1) _ (by omega)

/-- The method that the handler of a request calls to write. -/
def RegisterRequest.handle {σ : Type} (checks : Bool) (model : ModbusSlaveModel σ) :
    RegisterRequest → SlaveM σ (Except ModbusError Unit)
  | writeSingleRegister address value => model.run checks (.writeSingleRegister address value)
  | writeMultipleRegisters address values => model.run checks (.writeMultipleRegisters address values)
  | maskWriteRegister address andMask orMask =>
    model.run checks (.maskWriteRegister address andMask orMask)
  | readAndWriteMultipleRegisters writeAddress writeValues =>
    model.run checks (.writeMultipleRegisters writeAddress writeValues)

/-- The values of a request end before 65536. -/
def RegisterRequest.Fits : RegisterRequest → Prop
  | writeMultipleRegisters address values => address.toNat + values.length ≤ 65536
  | readAndWriteMultipleRegisters address values => address.toNat + values.length ≤ 65536
  | _ => True

/-- A request alone is the sequential execution of its writes. -/
theorem handle_registerModel (request : RegisterRequest) (hfits : request.Fits)
    (w : World (UInt16 → UInt16)) :
    request.handle checks (registerModel unit addressRange) w =
      (.ok (.ok ()),
        ⟨Update.replay w.state (request.ops.map RegisterOp.update), w.calls, w.replies⟩) := by
  cases request with
  | writeSingleRegister address value => rfl
  | writeMultipleRegisters address values =>
    exact writeEach_registerModel values 0 w (by rwa [Nat.zero_add])
  | maskWriteRegister address andMask orMask =>
    have hread : (registerModel unit addressRange).readHoldingRegisters address 1 w =
        (.ok (.ok [w.state (address + 0)]), w) := rfl
    rw [UInt16.add_zero] at hread
    exact SlaveM.bind_of_ok hread
  | readAndWriteMultipleRegisters writeAddress writeValues =>
    exact writeEach_registerModel writeValues 0 w (by rwa [Nat.zero_add])

end Alone

namespace RegisterRequest

/-- The registers of a request that locks are locked. -/
theorem cell_mem_lockAddresses {request : RegisterRequest} {addresses : List UInt16}
    (hlocks : request.lockAddresses = some addresses) {op : RegisterOp} (hop : op ∈ request.ops) :
    op.update.cell ∈ addresses := by
  cases request with
  | writeSingleRegister | writeMultipleRegisters => cases hlocks
  | maskWriteRegister address andMask orMask =>
    cases hlocks
    rw [List.mem_singleton.mp hop]
    exact List.mem_singleton_self address
  | readAndWriteMultipleRegisters writeAddress writeValues =>
    cases hlocks
    obtain ⟨⟨value, i⟩, hmem, rfl⟩ := List.mem_map.mp hop
    have hi : i < writeValues.length := (List.mem_zipIdx' hmem).1
    exact List.mem_map.mpr ⟨i, List.mem_range.mpr hi, rfl⟩

/-- Only FC22 reads before it writes, and it locks. -/
theorem lockAddresses_of_mask {request : RegisterRequest} {address andMask orMask : UInt16}
    (hop : .mask address andMask orMask ∈ request.ops) :
    request.lockAddresses = some [address] := by
  cases request with
  | writeSingleRegister =>
    cases List.mem_singleton.mp hop
  | writeMultipleRegisters | readAndWriteMultipleRegisters =>
    obtain ⟨_, -, heq⟩ := List.mem_map.mp hop
    cases heq
  | maskWriteRegister =>
    cases List.mem_singleton.mp hop
    rfl

end RegisterRequest

namespace RegisterWrites

variable {ι : Type} [DecidableEq ι] {requests : ι → RegisterRequest} {s t : RegisterWrites ι} {i j : ι}
  {fails : Bool}

/-! ## What a turn does -/

/-- The request may call the model: it takes no locks, or is in the body. -/
def Allowed (requests : ι → RegisterRequest) (s : RegisterWrites ι) (i : ι) : Prop :=
  (requests i).lockAddresses = none ∨ (s.locks.phase i).inBody = true

/-- What a turn of request `i` can do. -/
inductive Turn (requests : ι → RegisterRequest) (s : RegisterWrites ι) (i : ι) :
    Bool → RegisterWrites ι → Prop
  | lock {fails : Bool} {locks : AddressLocks ι}
    (hstep : s.locks.step (lockAddresses requests) i = some locks)
    (hbody : (s.locks.phase i).inBody = true → s.todo i = []) :
    Turn requests s i fails { s with locks }
  | fail {op : RegisterOp} {rest : List RegisterOp} (htodo : s.todo i = op :: rest) :
    Turn requests s i true { s with
      todo := Function.update s.todo i []
      current := Function.update s.current i none
      failed := Function.update s.failed i true }
  | write {address value : UInt16} {rest : List RegisterOp}
    (htodo : s.todo i = .write address value :: rest) (hallowed : Allowed requests s i) :
    Turn requests s i false { s with
      registers := Function.update s.registers address value
      todo := Function.update s.todo i rest }
  | read {address andMask orMask : UInt16} {rest : List RegisterOp}
    (htodo : s.todo i = .mask address andMask orMask :: rest) (hallowed : Allowed requests s i) :
    Turn requests s i false { s with
      current := Function.update s.current i (some (s.registers address)) }
  | writeBack {address andMask orMask current : UInt16} {rest : List RegisterOp}
    (htodo : s.todo i = .mask address andMask orMask :: rest) (hallowed : Allowed requests s i)
    (hcurrent : s.current i = some current) :
    Turn requests s i false { s with
      registers := Function.update s.registers address (maskValue andMask orMask current)
      todo := Function.update s.todo i rest
      current := Function.update s.current i none }

theorem access_turn (hallowed : Allowed requests s i) (haccess : s.access i fails = some t) :
    Turn requests s i fails t := by
  unfold access at haccess
  split at haccess
  next => cases haccess
  next op rest htodo =>
    split at haccess
    next hfails =>
      cases haccess
      rw [hfails]
      exact .fail htodo
    next hfails =>
      rw [Bool.not_eq_true] at hfails
      rw [hfails]
      split at haccess
      next =>
        cases haccess
        exact .write htodo hallowed
      next =>
        cases haccess
        exact .read htodo hallowed
      next hcurrent =>
        cases haccess
        exact .writeBack htodo hallowed hcurrent

theorem step_turn (hstep : s.step requests (i, fails) = some t) : Turn requests s i fails t := by
  unfold step at hstep
  dsimp only at hstep
  split at hstep
  next hlocks => exact access_turn (.inl hlocks) hstep
  next =>
    split at hstep
    next hphase _ =>
      refine access_turn (.inr ?_) hstep
      rw [hphase]
      rfl
    next hother =>
      obtain ⟨locks, hlocks, rfl⟩ := Option.map_eq_some_iff.mp hstep
      refine .lock hlocks ?_
      intro hbody
      cases htodo : s.todo i with
      | nil => rfl
      | cons op rest =>
        cases hphase : s.locks.phase i with
        | body guards => exact absurd htodo (hother guards op rest hphase)
        | _ =>
          rw [hphase] at hbody
          cases hbody

/-! ## The invariant -/

/-- The writes of a request in a sequential order. -/
def writesOf (i : ι) (order : List (ι × RegisterOp)) : List RegisterOp :=
  (order.filter (·.1 = i)).map (·.2)

/-- A sequential order of the writes made so far, that gives the registers: each request has made a
first part of its writes, in its order, and is left with the others unless a call has failed. -/
structure Serial (requests : ι → RegisterRequest) (registers : UInt16 → UInt16)
    (s : RegisterWrites ι) (order : List (ι × RegisterOp)) : Prop where
  replayed : s.registers = Update.replay registers (order.map (·.2.update))
  made : ∀ i, writesOf i order ++ s.todo i <+: (requests i).ops
  complete : ∀ i, s.failed i = false → writesOf i order ++ s.todo i = (requests i).ops

/-- A `mask_write_register` under way is in the body of its call, and what it has read is as good as
what the register has now. -/
def Reading (s : RegisterWrites ι) : Prop :=
  ∀ i current, s.current i = some current → ∃ address andMask orMask rest,
    s.todo i = .mask address andMask orMask :: rest ∧ (s.locks.phase i).inBody = true ∧
      (RegisterOp.mask address andMask orMask).update.Fresh current s.registers

/-- The invariant of the requests. -/
structure Inv [Fintype ι] (requests : ι → RegisterRequest) (registers : UInt16 → UInt16)
    (s : RegisterWrites ι) : Prop where
  locks : s.locks.Inv (lockAddresses requests)
  reading : s.Reading
  serial : ∃ order, s.Serial requests registers order

/-- No write without a lock changes a bit that a `mask_write_register` under way keeps. -/
def Undisturbed (requests : ι → RegisterRequest) (s : RegisterWrites ι) : ι × Bool → Prop
  | (i, fails) => fails = false → (requests i).lockAddresses = none →
    ∀ address value rest, s.todo i = .write address value :: rest →
      ∀ j andMask orMask rest' current, s.todo j = .mask address andMask orMask :: rest' →
        s.current j = some current → value &&& andMask = current &&& andMask

/-! ## The serial order -/

theorem writesOf_concat_self (i : ι) (order : List (ι × RegisterOp)) (op : RegisterOp) :
    writesOf i (order ++ [(i, op)]) = writesOf i order ++ [op] := by
  simp only [writesOf, List.filter_append, List.filter_cons, decide_true, if_true, List.filter_nil,
    List.map_append, List.map_cons, List.map_nil]

theorem writesOf_concat_of_ne {i j : ι} (hne : j ≠ i) (order : List (ι × RegisterOp))
    (op : RegisterOp) : writesOf j (order ++ [(i, op)]) = writesOf j order := by
  have hsilent : decide (i = j) = false := decide_eq_false hne.symm
  simp only [writesOf, List.filter_append, List.filter_cons, hsilent, Bool.false_eq_true, if_false,
    List.filter_nil, List.append_nil]

variable {registers : UInt16 → UInt16} {order : List (ι × RegisterOp)}

/-- What a request is left with is of the request. -/
theorem Serial.mem_ops (h : s.Serial requests registers order) {op : RegisterOp}
    (hop : op ∈ s.todo i) : op ∈ (requests i).ops :=
  (h.made i).subset (List.mem_append_right _ hop)

/-- A turn that makes no write keeps the order. -/
theorem Serial.same (h : s.Serial requests registers order) (hregisters : t.registers = s.registers)
    (htodo : t.todo = s.todo) (hfailed : t.failed = s.failed) :
    t.Serial requests registers order := by
  refine ⟨hregisters ▸ h.replayed, ?_, ?_⟩
  · rw [htodo]
    exact h.made
  · rw [htodo, hfailed]
    exact h.complete

/-- A call fails: the request is left with nothing. -/
theorem Serial.fail (h : s.Serial requests registers order) (hregisters : t.registers = s.registers)
    (htodo : t.todo = Function.update s.todo i []) (hfailed : t.failed = Function.update s.failed i true) :
    t.Serial requests registers order := by
  refine ⟨hregisters ▸ h.replayed, ?_, ?_⟩
  · intro j
    rw [htodo]
    by_cases hj : j = i
    · subst hj
      rw [Function.update_self, List.append_nil]
      exact (List.prefix_append _ _).trans (h.made j)
    · rw [Function.update_of_ne hj]
      exact h.made j
  · intro j hnot
    rw [hfailed] at hnot
    by_cases hj : j = i
    · subst hj
      rw [Function.update_self] at hnot
      cases hnot
    · rw [Function.update_of_ne hj] at hnot
      rw [htodo, Function.update_of_ne hj]
      exact h.complete j hnot

/-- A write goes to the end of the order. -/
theorem Serial.concat (h : s.Serial requests registers order) {op : RegisterOp}
    {rest : List RegisterOp} (hop : s.todo i = op :: rest)
    (hregisters : t.registers = op.update.run s.registers)
    (htodo : t.todo = Function.update s.todo i rest) (hfailed : t.failed = s.failed) :
    t.Serial requests registers (order ++ [(i, op)]) := by
  have hsame : ∀ j, writesOf j (order ++ [(i, op)]) ++ t.todo j = writesOf j order ++ s.todo j := by
    intro j
    rw [htodo]
    by_cases hj : j = i
    · subst hj
      rw [writesOf_concat_self, Function.update_self, hop, List.append_assoc, List.singleton_append]
    · rw [writesOf_concat_of_ne hj, Function.update_of_ne hj]
  refine ⟨?_, ?_, ?_⟩
  · rw [hregisters, h.replayed, List.map_append, List.map_cons, List.map_nil, Update.replay_concat]
  · intro j
    rw [hsame]
    exact h.made j
  · intro j
    rw [hsame, hfailed]
    exact h.complete j

/-! ## Runs -/

/-- A turn of a call of `with_address_lock` moves no other call. -/
theorem phase_of_step {addresses : ι → List UInt16} {locks locks' : AddressLocks ι}
    (hstep : locks.step addresses i = some locks') (hne : j ≠ i) :
    locks'.phase j = locks.phase j := by
  cases AddressLocks.step_turn hstep with
  | collect hphase =>
    refine (AddressLocks.phase_setPhase_of_ne _ _ hne).trans ?_
    exact congrFun (AddressLocks.phase_entry locks _) j
  | clean hphase =>
    refine (AddressLocks.phase_setPhase_of_ne _ _ hne).trans ?_
    exact congrFun (AddressLocks.phase_cleanEntry locks _) j
  | _ => exact AddressLocks.phase_setPhase_of_ne _ _ hne

section Invariant

variable [Fintype ι]

/-- A request that may call the model for a register and an FC22 of that register in its body are one,
or the request takes no locks. -/
theorem Inv.eq_of_allowed (h : s.Inv requests registers) (hallowed : Allowed requests s i)
    {op : RegisterOp} (hop : op ∈ (requests i).ops) {address andMask orMask : UInt16}
    (haddress : op.update.cell = address) (hmask : .mask address andMask orMask ∈ (requests j).ops)
    (hbody : (s.locks.phase j).inBody = true) : (requests i).lockAddresses = none ∨ i = j := by
  obtain hnone | hin := hallowed
  · exact .inl hnone
  · cases hlocks : (requests i).lockAddresses with
    | none => exact .inl rfl
    | some addresses =>
      refine .inr (h.locks.exclusive hin hbody (a := address) ?_ ?_)
      · rw [lockAddresses, hlocks, ← haddress]
        exact RegisterRequest.cell_mem_lockAddresses hlocks hop
      · rw [lockAddresses, RegisterRequest.lockAddresses_of_mask hmask]
        exact List.mem_singleton_self address

/-- A write by one request leaves what the others have read fresh. -/
theorem Inv.reading_write (h : s.Inv requests registers) (hallowed : Allowed requests s i)
    {op : RegisterOp} {rest : List RegisterOp} (htodo : s.todo i = op :: rest) {value : UInt16}
    (hundisturbed : (requests i).lockAddresses = none → ∀ j andMask orMask rest' current,
      s.todo j = .mask op.update.cell andMask orMask :: rest' → s.current j = some current →
        value &&& andMask = current &&& andMask) (hne : j ≠ i) {current : UInt16}
    (hcurrent : s.current j = some current) :
    ∃ address andMask orMask rest, s.todo j = .mask address andMask orMask :: rest ∧
      (s.locks.phase j).inBody = true ∧ (RegisterOp.mask address andMask orMask).update.Fresh current
        (Function.update s.registers op.update.cell value) := by
  obtain ⟨address, andMask, orMask, rest', htodo', hbody, hfresh⟩ := h.reading j current hcurrent
  refine ⟨address, andMask, orMask, rest', htodo', hbody, ?_⟩
  by_cases hcell : op.update.cell = address
  · obtain ⟨order, hserial⟩ := h.serial
    have hop : op ∈ (requests i).ops := hserial.mem_ops (htodo ▸ List.mem_cons_self)
    have hmask : .mask address andMask orMask ∈ (requests j).ops :=
      hserial.mem_ops (htodo' ▸ List.mem_cons_self)
    obtain hnone | heq := h.eq_of_allowed hallowed hop hcell hmask hbody
    · have hbits := hundisturbed hnone j andMask orMask rest' current (hcell ▸ htodo') hcurrent
      rw [hcell]
      refine Update.fresh_update (u := (RegisterOp.mask address andMask orMask).update) ?_
      show maskValue andMask orMask current = maskValue andMask orMask value
      rw [maskValue, maskValue, hbits]
    · exact absurd heq.symm hne
  · exact hfresh.of_ne (fun heq => hcell heq.symm) value

theorem Inv.reading_step (h : s.Inv requests registers) (hundisturbed : Undisturbed requests s (i, fails))
    (hturn : Turn requests s i fails t) : t.Reading := by
  intro j current hcurrent
  cases hturn with
  | @lock _ locks hstep hbody =>
    obtain ⟨address, andMask, orMask, rest, htodo, hin, hfresh⟩ := h.reading j current hcurrent
    have hne : j ≠ i := by
      rintro rfl
      rw [hbody hin] at htodo
      cases htodo
    exact ⟨address, andMask, orMask, rest, htodo, by rw [phase_of_step hstep hne]; exact hin, hfresh⟩
  | fail htodo =>
    have hne : j ≠ i := by
      rintro rfl
      cases (Function.update_self ..).symm.trans hcurrent
    have hold : s.current j = some current := (Function.update_of_ne hne ..).symm.trans hcurrent
    obtain ⟨address, andMask, orMask, rest, htodo', hin, hfresh⟩ := h.reading j current hold
    exact ⟨address, andMask, orMask, rest, (Function.update_of_ne hne ..).trans htodo', hin, hfresh⟩
  | @write address value rest htodo hallowed =>
    have hne : j ≠ i := by
      rintro rfl
      obtain ⟨_, _, _, _, hmask, -⟩ := h.reading j current hcurrent
      rw [htodo] at hmask
      cases hmask
    obtain ⟨address', andMask, orMask, rest', htodo', hin, hfresh⟩ :=
      h.reading_write hallowed htodo (fun hnone j andMask orMask rest' current htodo' hcurrent =>
        hundisturbed rfl hnone address value rest htodo j andMask orMask rest' current htodo' hcurrent)
        hne hcurrent
    exact ⟨address', andMask, orMask, rest', (Function.update_of_ne hne ..).trans htodo', hin, hfresh⟩
  | @read address andMask orMask rest htodo hallowed =>
    by_cases hj : j = i
    · subst hj
      obtain ⟨order, hserial⟩ := h.serial
      have hmask : .mask address andMask orMask ∈ (requests j).ops :=
        hserial.mem_ops (htodo ▸ List.mem_cons_self)
      have hin : (s.locks.phase j).inBody = true := by
        obtain hnone | hin := hallowed
        · rw [RegisterRequest.lockAddresses_of_mask hmask] at hnone
          cases hnone
        · exact hin
      have hread : Function.update s.current j (some (s.registers address)) j = some current :=
        hcurrent
      rw [Function.update_self] at hread
      obtain rfl := Option.some.inj hread
      exact ⟨address, andMask, orMask, rest, htodo, hin, rfl⟩
    · exact h.reading j current ((Function.update_of_ne hj ..).symm.trans hcurrent)
  | @writeBack address andMask orMask read rest htodo hallowed hread =>
    have hne : j ≠ i := by
      rintro rfl
      cases (Function.update_self ..).symm.trans hcurrent
    have hold : s.current j = some current := (Function.update_of_ne hne ..).symm.trans hcurrent
    have hlocked : (requests i).lockAddresses ≠ none := by
      obtain ⟨order, hserial⟩ := h.serial
      rw [RegisterRequest.lockAddresses_of_mask (hserial.mem_ops (htodo ▸ List.mem_cons_self))]
      exact Option.some_ne_none _
    obtain ⟨address', andMask', orMask', rest', htodo', hin, hfresh⟩ :=
      h.reading_write hallowed htodo (fun hnone => absurd hnone hlocked) hne hold
    exact ⟨address', andMask', orMask', rest', (Function.update_of_ne hne ..).trans htodo', hin, hfresh⟩

theorem Inv.serial_step (h : s.Inv requests registers) (hturn : Turn requests s i fails t) :
    ∃ order, t.Serial requests registers order := by
  obtain ⟨order, hserial⟩ := h.serial
  cases hturn with
  | lock => exact ⟨order, hserial.same rfl rfl rfl⟩
  | fail => exact ⟨order, hserial.fail rfl rfl rfl⟩
  | write htodo => exact ⟨_, hserial.concat htodo rfl rfl rfl⟩
  | read => exact ⟨order, hserial.same rfl rfl rfl⟩
  | @writeBack address andMask orMask current rest htodo hallowed hcurrent =>
    obtain ⟨_, _, _, _, hmask, -, hfresh⟩ := h.reading i current hcurrent
    cases htodo.symm.trans hmask
    exact ⟨_, hserial.concat htodo hfresh.run_eq rfl rfl⟩

theorem Inv.step (h : s.Inv requests registers) (hundisturbed : Undisturbed requests s (i, fails))
    (hstep : s.step requests (i, fails) = some t) : t.Inv requests registers := by
  have hturn := step_turn hstep
  refine ⟨?_, h.reading_step hundisturbed hturn, h.serial_step hturn⟩
  cases hturn with
  | lock hlocks => exact h.locks.step hlocks
  | _ => exact h.locks

theorem inv_init (requests : ι → RegisterRequest) (registers : UInt16 → UInt16) :
    (init requests registers).Inv requests registers := by
  refine ⟨AddressLocks.inv_init _, ?_, [], rfl, fun i => List.prefix_refl _, fun i _ => rfl⟩
  intro i current hcurrent
  cases hcurrent

/-- **Updates are lost only to writes without a lock**: in every run of requests in which no FC6 or
FC16, between the read and the write of an FC22 of the same register, changes a bit that the FC22
keeps, the registers are always those of a sequential execution of the writes made so far. -/
theorem registerWrites_serial (requests : ι → RegisterRequest) (registers : UInt16 → UInt16)
    {schedule : List (ι × Bool)} (run : exec (step requests) (init requests registers) schedule = some s)
    (meets : Meets (step requests) (Undisturbed requests) (init requests registers) schedule) :
    ∃ order, s.Serial requests registers order :=
  (exec_invariant (fun _ (_, _) _ h hundisturbed hstep => Inv.step h hundisturbed hstep) run meets
    (inv_init requests registers)).serial

omit [DecidableEq ι] [Fintype ι] in
/-- A request that locks disturbs nobody. -/
theorem undisturbed_of_locks (h : (requests i).lockAddresses ≠ none) :
    Undisturbed requests s (i, fails) :=
  fun _ hnone => absurd hnone h

end Invariant

/-- An FC22 and an FC6 of one register. -/
def maskAndWrite (call : Bool) : RegisterRequest :=
  if call then .maskWriteRegister 5 0xff00 0x0056 else .writeSingleRegister 5 0x0034

/-- The FC6 first, and then the FC22. -/
theorem registerWrites_serial_writeFirst :
    ∃ s, exec (step maskAndWrite) (init maskAndWrite fun _ => 0x1200)
        ((false, false) :: List.replicate 17 (true, false)) = some s ∧
      ∃ order, s.Serial maskAndWrite (fun _ => 0x1200) order := by
  have hsome : (exec (step maskAndWrite) (init maskAndWrite fun _ => 0x1200)
    ((false, false) :: List.replicate 17 (true, false))).isSome = true := by decide
  obtain ⟨s, run⟩ := Option.isSome_iff_exists.mp hsome
  refine ⟨s, run, registerWrites_serial _ _ run ⟨?_, ?_⟩⟩
  · intro _ _ address value rest _ j andMask orMask rest' current _ hcurrent
    cases hcurrent
  · intro t _
    refine Meets.of_mem ?_ t
    intro label hlabel u
    rw [List.eq_of_mem_replicate hlabel]
    exact undisturbed_of_locks (Option.some_ne_none _)

theorem length_writesOf (order : List (Bool × RegisterOp)) :
    (writesOf true order).length + (writesOf false order).length = order.length := by
  induction order with
  | nil => rfl
  | cons x order ih =>
    obtain ⟨b, op⟩ := x
    simp only [writesOf, List.length_map] at ih ⊢
    cases b <;> simp only [List.filter_cons, decide_true, decide_false, if_true, if_false,
      Bool.false_eq_true, Bool.true_eq_false, List.length_cons] <;> omega

/-- Two requests of one write each have two orders. -/
theorem two_orders {order : List (Bool × RegisterOp)} {op op' : RegisterOp}
    (h : writesOf true order = [op]) (h' : writesOf false order = [op']) :
    order = [(true, op), (false, op')] ∨ order = [(false, op'), (true, op)] := by
  have hlength := length_writesOf order
  rw [h, h'] at hlength
  obtain ⟨⟨b, x⟩, ⟨b', y⟩, rfl⟩ := List.length_eq_two.mp hlength.symm
  cases b <;> cases b' <;> simp [writesOf] at h h'
  · exact .inr (by rw [h, h'])
  · exact .inl (by rw [h, h'])

/-- An FC6 between the read and the write of an FC22 is half lost: the register ends as neither order
leaves it. -/
theorem registerWrite_lost :
    ¬ ∀ (requests : Bool → RegisterRequest) (registers : UInt16 → UInt16)
      (schedule : List (Bool × Bool)) (s : RegisterWrites Bool),
      exec (step requests) (init requests registers) schedule = some s →
        ∃ order, s.Serial requests registers order := by
  intro h
  have hrun : (exec (step maskAndWrite) (init maskAndWrite fun _ => 0x1200)
      (List.replicate 8 (true, false) ++ (false, false) :: List.replicate 9 (true, false))).map
        (fun s => (s.registers 5, s.todo true, s.todo false, s.failed true, s.failed false)) =
      some (0x1256, [], [], false, false) := by decide
  obtain ⟨s, run, hs⟩ := Option.map_eq_some_iff.mp hrun
  simp only [Prod.mk.injEq] at hs
  obtain ⟨hregister, hmask, hwrite, hmaskOk, hwriteOk⟩ := hs
  obtain ⟨order, hserial⟩ := h _ _ _ s run
  have hmasks := hserial.complete true hmaskOk
  have hwrites := hserial.complete false hwriteOk
  rw [hmask, List.append_nil] at hmasks
  rw [hwrite, List.append_nil] at hwrites
  have hreplayed := congrFun hserial.replayed 5
  rw [hregister] at hreplayed
  obtain rfl | rfl := two_orders hmasks hwrites
  · exact absurd hreplayed (by decide)
  · exact absurd hreplayed (by decide)

end RegisterWrites

end RsModbus.Slave
