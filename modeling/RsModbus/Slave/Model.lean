import RsModbus.Application.Rtu

/-!
# Slave models

The trait `ModbusSlaveModel` of `slave.rs`: a unit, its address ranges and twelve methods, each with
a default. A **call** names a method and its arguments; a model says what its own methods do with a
call, and `ModbusSlaveModel.call` falls back on the trait's default where it has none.

A handler runs in `SlaveM`: it transforms the world, and it may panic. The world is the state behind
the models together with what has happened so far: which calls the handlers made, and which bytes
were passed to the reply closure. What happened before a panic stays.
-/

namespace RsModbus.Slave

/-! ## Calls -/

/-- `ServerId`. -/
structure ServerId where
  serverId : Bytes
  runIndicatorStatus : Bool
  additionalData : Bytes
  deriving DecidableEq, Repr

/-- A call of a method of `ModbusSlaveModel`. -/
inductive Call where
  | intercept (fc : UInt8) (data : Bytes)
  | readCoils (address length : UInt16)
  | writeSingleCoil (address : UInt16) (value : Bool)
  | writeMultipleCoils (address : UInt16) (values : List Bool)
  | readDiscreteInputs (address length : UInt16)
  | readHoldingRegisters (address length : UInt16)
  | writeSingleRegister (address value : UInt16)
  | writeMultipleRegisters (address : UInt16) (values : List UInt16)
  | maskWriteRegister (address andMask orMask : UInt16)
  | readInputRegisters (address length : UInt16)
  | reportServerId
  | readDeviceIdentification
  deriving DecidableEq, Repr

/-- What the method of a call returns when it succeeds. A device identification is a map from object
ids to strings, here its entries in iteration order with the bytes of each string. -/
abbrev Call.Answer : Call → Type
  | .intercept .. => Option Bytes
  | .readCoils .. => List Bool
  | .writeSingleCoil .. => Unit
  | .writeMultipleCoils .. => Unit
  | .readDiscreteInputs .. => List Bool
  | .readHoldingRegisters .. => List UInt16
  | .writeSingleRegister .. => Unit
  | .writeMultipleRegisters .. => Unit
  | .maskWriteRegister .. => Unit
  | .readInputRegisters .. => List UInt16
  | .reportServerId => ServerId
  | .readDeviceIdentification => List (UInt8 × Bytes)

/-! ## Handler computations -/

/-- The state behind the models, the calls made (with the unit called) and the replies sent. -/
structure World (σ : Type) where
  state : σ
  calls : List (UInt8 × Call) := []
  replies : List Bytes := []
  deriving DecidableEq, Repr

/-- A computation of a handler. -/
def SlaveM (σ α : Type) : Type := World σ → Except Panic α × World σ

namespace SlaveM

variable {σ α β : Type}

instance : Monad (SlaveM σ) where
  pure a w := (.ok a, w)
  bind x f w :=
    match x w with
    | (.ok a, w') => f a w'
    | (.error p, w') => (.error p, w')

/-- A computation that touches nothing but may panic. -/
def lift (x : Except Panic α) : SlaveM σ α := fun w => (x, w)

instance : MonadLift (Except Panic) (SlaveM σ) := ⟨lift⟩

@[simp] theorem pure_apply (a : α) (w : World σ) : (pure a : SlaveM σ α) w = (.ok a, w) := rfl

@[simp] theorem lift_ok (a : α) (w : World σ) : (lift (.ok a) : SlaveM σ α) w = (.ok a, w) := rfl

@[simp] theorem lift_error (p : Panic) (w : World σ) :
    (lift (.error p) : SlaveM σ α) w = (.error p, w) := rfl

theorem bind_of_ok {x : SlaveM σ α} {f : α → SlaveM σ β} {w w' : World σ} {a : α}
    (h : x w = (.ok a, w')) : (x >>= f) w = f a w' := by
  simp only [bind, h]

theorem bind_of_error {x : SlaveM σ α} {f : α → SlaveM σ β} {w w' : World σ} {p : Panic}
    (h : x w = (.error p, w')) : (x >>= f) w = (.error p, w') := by
  simp only [bind, h]

end SlaveM

/-! ## Models -/

/-- An implementor of `ModbusSlaveModel`: its unit, its ranges, and what the methods it implements
do. `none` leaves a method to the default of the trait. -/
structure ModbusSlaveModel (σ : Type) where
  unit : UInt8
  addressRange : AddressRange
  implemented : (c : Call) → Option (σ → Except ModbusError c.Answer × σ)

namespace ModbusSlaveModel

variable {σ : Type}

/-- A method that the model implements, or else `fallback`. -/
def method (m : ModbusSlaveModel σ) (c : Call) (fallback : SlaveM σ (Except ModbusError c.Answer)) :
    SlaveM σ (Except ModbusError c.Answer) :=
  match m.implemented c with
  | some body => fun w => (.ok (body w.state).1, { w with state := (body w.state).2 })
  | none => fallback

/-- `write_single_coil` and its default. -/
def writeSingleCoil (m : ModbusSlaveModel σ) (address : UInt16) (value : Bool) :
    SlaveM σ (Except ModbusError Unit) :=
  m.method (.writeSingleCoil address value) (pure (.error .illegalFunction))

/-- `read_holding_registers` and its default. -/
def readHoldingRegisters (m : ModbusSlaveModel σ) (address length : UInt16) :
    SlaveM σ (Except ModbusError (List UInt16)) :=
  m.method (.readHoldingRegisters address length) (pure (.error .illegalFunction))

/-- `write_single_register` and its default. -/
def writeSingleRegister (m : ModbusSlaveModel σ) (address value : UInt16) :
    SlaveM σ (Except ModbusError Unit) :=
  m.method (.writeSingleRegister address value) (pure (.error .illegalFunction))

/-- The loop of the default `write_multiple_coils` and `write_multiple_registers`: one write after
the other at `address + i as u16`, up to the first error. -/
def writeEach {α : Type} (checks : Bool) (write : UInt16 → α → SlaveM σ (Except ModbusError Unit))
    (address : UInt16) : Nat → List α → SlaveM σ (Except ModbusError Unit)
  | _, [] => pure (.ok ())
  | i, value :: values => do
    let target ← SlaveM.lift (addU16 checks address (UInt16.ofNat i))
    match ← write target value with
    | .ok () => writeEach checks write address (i + 1) values
    | .error e => return .error e

/-- The default `mask_write_register`. -/
def maskWrite (m : ModbusSlaveModel σ) (address andMask orMask : UInt16) :
    SlaveM σ (Except ModbusError Unit) := do
  match ← m.readHoldingRegisters address 1 with
  | .error e => return .error e
  | .ok [] => return .error .serverDeviceFailure
  | .ok (current :: _) =>
    m.writeSingleRegister address ((current &&& andMask) ||| (orMask &&& ~~~andMask))

/-- The defaults of the trait. -/
def byDefault (checks : Bool) (m : ModbusSlaveModel σ) :
    (c : Call) → SlaveM σ (Except ModbusError c.Answer)
  | .intercept .. => pure (.ok none)
  | .writeMultipleCoils address values => writeEach checks m.writeSingleCoil address 0 values
  | .writeMultipleRegisters address values => writeEach checks m.writeSingleRegister address 0 values
  | .maskWriteRegister address andMask orMask => m.maskWrite address andMask orMask
  | .readCoils .. => pure (.error .illegalFunction)
  | .writeSingleCoil .. => pure (.error .illegalFunction)
  | .readDiscreteInputs .. => pure (.error .illegalFunction)
  | .readHoldingRegisters .. => pure (.error .illegalFunction)
  | .writeSingleRegister .. => pure (.error .illegalFunction)
  | .readInputRegisters .. => pure (.error .illegalFunction)
  | .reportServerId => pure (.error .illegalFunction)
  | .readDeviceIdentification => pure (.error .illegalFunction)

/-- A method of the model: the model's own, or the default of the trait. -/
def run (checks : Bool) (m : ModbusSlaveModel σ) (c : Call) :
    SlaveM σ (Except ModbusError c.Answer) :=
  m.method c (m.byDefault checks c)

/-- A handler's call of a method of the model. -/
def call (checks : Bool) (m : ModbusSlaveModel σ) (c : Call) : SlaveM σ (Except ModbusError c.Answer) :=
  fun w => m.run checks c { w with calls := w.calls ++ [(m.unit, c)] }

end ModbusSlaveModel

/-! ## Custom function codes -/

/-- `CustomFunctionCode`: the predictors of framing and the slave-side handler. -/
structure CustomFunctionCode (σ : Type) extends Rtu.CustomFunctionCode where
  handle : Option (Bytes → UInt8 → σ → Except ModbusError Bytes × σ)

end RsModbus.Slave
