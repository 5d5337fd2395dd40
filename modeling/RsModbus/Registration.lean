import RsModbus.Slave.Model

/-!
# Registration of custom function codes

A master or a slave holds its application layer behind the trait `ApplicationLayer`, and passes a
registration on to it. The trait has a default for both methods, which does nothing; the RTU layer has
methods of these names of its own (`Rtu.RtuApplicationLayer.addCustomFunctionCode`), and its
implementation of the trait has neither.
-/

namespace RsModbus.Registration

variable {α σ : Type}

/-- The trait `ApplicationLayer`, as far as registration goes, with its defaults. -/
class ApplicationLayer (α : Type) where
  addCustomFunctionCode : α → Rtu.CustomFunctionCode → α := fun app _ => app
  removeCustomFunctionCode : α → UInt8 → α := fun app _ => app

/-- `impl ApplicationLayer for RtuApplicationLayer`: both methods are the trait's. -/
instance : ApplicationLayer Rtu.RtuApplicationLayer where

/-- `ModbusMaster`, as far as it registers codes. -/
structure ModbusMaster (α : Type) where
  application : α

/-- `ModbusSlave`, as far as it registers codes: the table is that of the dispatch. -/
structure ModbusSlave (α σ : Type) where
  application : α
  customFunctionCodes : UInt8 → Option (Slave.CustomFunctionCode σ)

section Owners

variable [ApplicationLayer α]

/-- `ModbusMaster::add_custom_function_code`. -/
def ModbusMaster.addCustomFunctionCode (master : ModbusMaster α) (cfc : Slave.CustomFunctionCode σ) :
    ModbusMaster α :=
  { application :=
      ApplicationLayer.addCustomFunctionCode master.application cfc.toCustomFunctionCode }

/-- `ModbusMaster::remove_custom_function_code`. -/
def ModbusMaster.removeCustomFunctionCode (master : ModbusMaster α) (fc : UInt8) : ModbusMaster α :=
  { application := ApplicationLayer.removeCustomFunctionCode master.application fc }

/-- `ModbusSlave::add_custom_function_code`. -/
def ModbusSlave.addCustomFunctionCode (slave : ModbusSlave α σ) (cfc : Slave.CustomFunctionCode σ) :
    ModbusSlave α σ where
  application := ApplicationLayer.addCustomFunctionCode slave.application cfc.toCustomFunctionCode
  customFunctionCodes := Function.update slave.customFunctionCodes cfc.fc (some cfc)

/-- `ModbusSlave::remove_custom_function_code`. -/
def ModbusSlave.removeCustomFunctionCode (slave : ModbusSlave α σ) (fc : UInt8) : ModbusSlave α σ where
  application := ApplicationLayer.removeCustomFunctionCode slave.application fc
  customFunctionCodes := Function.update slave.customFunctionCodes fc none

end Owners

/-! ## Sequences of calls -/

/-- A call of one of the two methods. -/
inductive RegistrationCall (σ : Type) where
  | add (cfc : Slave.CustomFunctionCode σ)
  | remove (fc : UInt8)

/-- A master or a slave that owns an RTU layer. -/
inductive Owner (σ : Type) where
  | master (master : ModbusMaster Rtu.RtuApplicationLayer)
  | slave (slave : ModbusSlave Rtu.RtuApplicationLayer σ)

namespace Owner

/-- The owner of a new RTU layer; its constructor sets the layer's role. -/
def new (role : ApplicationRole) (layerType : PhysicalLayerType) (serialIntervals : Nat × Nat) :
    Owner σ :=
  let application := Rtu.RtuApplicationLayer.new layerType serialIntervals (some role)
  match role with
  | .master => .master ⟨application⟩
  | .slave => .slave ⟨application, fun _ => none⟩

/-- The layer an owner owns. -/
def application : Owner σ → Rtu.RtuApplicationLayer
  | .master m => m.application
  | .slave s => s.application

/-- A call on the owner. -/
def call (owner : Owner σ) (c : RegistrationCall σ) : Owner σ :=
  match owner, c with
  | .master m, .add cfc => .master (m.addCustomFunctionCode cfc)
  | .master m, .remove fc => .master (m.removeCustomFunctionCode fc)
  | .slave s, .add cfc => .slave (s.addCustomFunctionCode cfc)
  | .slave s, .remove fc => .slave (s.removeCustomFunctionCode fc)

/-- The owner after its calls. -/
def after (owner : Owner σ) (calls : List (RegistrationCall σ)) : Owner σ :=
  calls.foldl call owner

end Owner

/-- A call on the layer itself. -/
def directCall (app : Rtu.RtuApplicationLayer) : RegistrationCall σ → Rtu.RtuApplicationLayer
  | .add cfc => app.addCustomFunctionCode cfc.toCustomFunctionCode
  | .remove fc => app.removeCustomFunctionCode fc

end RsModbus.Registration
