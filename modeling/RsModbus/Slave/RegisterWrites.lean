import RsModbus.Library.Updates
import RsModbus.Slave.AddressLocks

/-!
# Concurrent register writes (`slave.rs`)

The requests that write holding registers, for a model with the default `write_multiple_registers`
and `mask_write_register`: FC6 and FC16 write at once, FC22 and FC23 write in the body of
`with_address_lock`. A step is one turn of one request, which ends at an `await`: a turn of
`with_address_lock`, or one call of `read_holding_registers` or `write_single_register`. A call that
fails changes nothing and ends the writes of its request. The read of FC23, which comes after its
writes and outside of the locks, changes nothing either and is no step here.
-/

namespace RsModbus.Slave

open Library

/-- What a request does to the registers, write by write. -/
inductive RegisterOp where
  | write (address value : UInt16)
  | mask (address andMask orMask : UInt16)
  deriving DecidableEq, Repr

/-- The value `mask_write_register` writes for the value it has read. -/
def maskValue (andMask orMask current : UInt16) : UInt16 :=
  (current &&& andMask) ||| (orMask &&& ~~~andMask)

/-- The update that a write makes at once. -/
def RegisterOp.update : RegisterOp → Update UInt16 UInt16
  | .write address value => ⟨address, fun _ => value⟩
  | .mask address andMask orMask => ⟨address, maskValue andMask orMask⟩

/-- A request that has passed the checks of its handler. -/
inductive RegisterRequest where
  /-- FC6. -/
  | writeSingleRegister (address value : UInt16)
  /-- FC16. -/
  | writeMultipleRegisters (address : UInt16) (values : List UInt16)
  /-- FC22. -/
  | maskWriteRegister (address andMask orMask : UInt16)
  /-- FC23. -/
  | readAndWriteMultipleRegisters (writeAddress : UInt16) (writeValues : List UInt16)
  deriving DecidableEq, Repr

namespace RegisterRequest

/-- The writes of the default `write_multiple_registers`. -/
def writeEach (address : UInt16) (values : List UInt16) : List RegisterOp :=
  values.zipIdx.map fun (value, i) => .write (address + UInt16.ofNat i) value

/-- The writes of a request, in order. -/
def ops : RegisterRequest → List RegisterOp
  | writeSingleRegister address value => [.write address value]
  | writeMultipleRegisters address values => writeEach address values
  | maskWriteRegister address andMask orMask => [.mask address andMask orMask]
  | readAndWriteMultipleRegisters writeAddress writeValues => writeEach writeAddress writeValues

/-- The addresses a request locks, if its handler calls `with_address_lock`. -/
def lockAddresses : RegisterRequest → Option (List UInt16)
  | writeSingleRegister .. => none
  | writeMultipleRegisters .. => none
  | maskWriteRegister address _ _ => some [address]
  | readAndWriteMultipleRegisters writeAddress writeValues =>
    some ((List.range writeValues.length).map fun i => writeAddress + UInt16.ofNat i)

end RegisterRequest

/-- The registers and the requests: the writes each has left, the value that the
`mask_write_register` under way has read, and whether a call has failed. -/
structure RegisterWrites (ι : Type) where
  locks : AddressLocks ι := {}
  registers : UInt16 → UInt16
  todo : ι → List RegisterOp
  current : ι → Option UInt16 := fun _ => none
  failed : ι → Bool := fun _ => false

namespace RegisterWrites

variable {ι : Type} [DecidableEq ι]

/-- The requests before any has begun. -/
def init (requests : ι → RegisterRequest) (registers : UInt16 → UInt16) : RegisterWrites ι :=
  { registers, todo := fun i => (requests i).ops }

/-- The addresses of the calls of `with_address_lock`. -/
def lockAddresses (requests : ι → RegisterRequest) (i : ι) : List UInt16 :=
  (requests i).lockAddresses.getD []

/-- The next call of a method of the model; `fails` if it returns an error. -/
def access (s : RegisterWrites ι) (i : ι) (fails : Bool) : Option (RegisterWrites ι) :=
  match s.todo i with
  | [] => none
  | op :: rest =>
    if fails then
      some { s with
        todo := Function.update s.todo i []
        current := Function.update s.current i none
        failed := Function.update s.failed i true }
    else
      match op, s.current i with
      | .write address value, _ =>
        some { s with
          registers := Function.update s.registers address value
          todo := Function.update s.todo i rest }
      | .mask address _ _, none =>
        some { s with current := Function.update s.current i (some (s.registers address)) }
      | .mask address andMask orMask, some current =>
        some { s with
          registers := Function.update s.registers address (maskValue andMask orMask current)
          todo := Function.update s.todo i rest
          current := Function.update s.current i none }

/-- One turn of request `i`. The body of a call of `with_address_lock` ends after its last write. -/
def step (requests : ι → RegisterRequest) (s : RegisterWrites ι) : ι × Bool → Option (RegisterWrites ι)
  | (i, fails) =>
    match (requests i).lockAddresses with
    | none => s.access i fails
    | some _ =>
      match s.locks.phase i, s.todo i with
      | .body _, _ :: _ => s.access i fails
      | _, _ => (s.locks.step (lockAddresses requests) i).map fun locks => { s with locks }

end RegisterWrites

end RsModbus.Slave
