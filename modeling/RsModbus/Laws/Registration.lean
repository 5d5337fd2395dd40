import RsModbus.Laws.RtuBurst
import RsModbus.Registration

/-!
# Registered codes and RTU framing

A registered code reaches the framing of an RTU layer when the layer's table of predictors holds it
and its frames are delivered (`ReachesFraming`). `directCalls_reach`: calls on the layer itself reach
its framing. `ownerCalls_reach_iff`: calls on the master or slave that owns it do so only while no
code is registered, since the layer inherits the trait's empty methods.
-/

namespace RsModbus.Registration

open Library Rtu

variable {σ : Type}

/-! ## What is registered -/

/-- A table after a call. -/
def register (table : UInt8 → Option (Slave.CustomFunctionCode σ)) :
    RegistrationCall σ → UInt8 → Option (Slave.CustomFunctionCode σ)
  | .add cfc => Function.update table cfc.fc (some cfc)
  | .remove fc => Function.update table fc none

/-- The codes that were added and not removed since, each as it was added last. -/
def registered (calls : List (RegistrationCall σ)) : UInt8 → Option (Slave.CustomFunctionCode σ) :=
  calls.foldl register fun _ => none

/-- Every call that added the code was followed by one that removed it. -/
def Withdrawn (calls : List (RegistrationCall σ)) (fc : UInt8) : Prop :=
  ∀ before cfc after, calls = before ++ .add cfc :: after → cfc.fc = fc → .remove fc ∈ after

theorem withdrawn_cons (c : RegistrationCall σ) (calls : List (RegistrationCall σ)) (fc : UInt8) :
    Withdrawn (c :: calls) fc ↔
      (∀ cfc, c = .add cfc → cfc.fc = fc → .remove fc ∈ calls) ∧ Withdrawn calls fc := by
  constructor
  · intro h
    refine ⟨?_, ?_⟩
    · intro cfc hc
      exact h [] cfc calls (congrArg (· :: calls) hc)
    · intro before cfc after hcalls
      exact h (c :: before) cfc after (congrArg (c :: ·) hcalls)
  · rintro ⟨hfirst, hrest⟩ before cfc after hcalls hfc
    cases before with
    | nil =>
      cases hcalls
      exact hfirst cfc rfl hfc
    | cons c' before =>
      cases hcalls
      exact hrest before cfc after rfl hfc

/-- What a table holds of a code after calls. -/
theorem foldl_register_eq_none_iff (calls : List (RegistrationCall σ))
    (table : UInt8 → Option (Slave.CustomFunctionCode σ)) (fc : UInt8) :
    calls.foldl register table fc = none ↔
      (table fc = none ∨ .remove fc ∈ calls) ∧ Withdrawn calls fc := by
  induction calls generalizing table with
  | nil =>
    have hnil : Withdrawn ([] : List (RegistrationCall σ)) fc := by
      intro before cfc after hcalls
      cases before <;> cases hcalls
    simp only [List.foldl_nil, List.not_mem_nil, or_false, hnil, and_true]
  | cons c calls ih =>
    rw [List.foldl_cons, ih, withdrawn_cons, List.mem_cons]
    cases c with
    | add cfc =>
      by_cases hfc : cfc.fc = fc
      · subst hfc
        simp only [register, Function.update_self, reduceCtorEq, false_or,
          RegistrationCall.add.injEq, forall_eq', true_imp_iff]
        tauto
      · simp only [register, Function.update_of_ne (Ne.symm hfc), reduceCtorEq, false_or,
          RegistrationCall.add.injEq, forall_eq', hfc, false_imp_iff, true_and]
    | remove fc' =>
      by_cases hfc : fc = fc'
      · subst hfc
        simp only [register, Function.update_self, true_or, or_true, reduceCtorEq, false_imp_iff,
          implies_true, true_and]
      · simp only [register, Function.update_of_ne hfc, RegistrationCall.remove.injEq, hfc, false_or,
          reduceCtorEq, false_imp_iff, implies_true, true_and]

/-- A code is not registered when every call that added it was followed by one that removed it. -/
theorem registered_eq_none_iff (calls : List (RegistrationCall σ)) (fc : UInt8) :
    registered calls fc = none ↔ Withdrawn calls fc := by
  rw [registered, foldl_register_eq_none_iff]
  exact and_iff_right (.inl rfl)

/-- A table holds every code under its own number. -/
theorem foldl_register_fc (calls : List (RegistrationCall σ))
    {table : UInt8 → Option (Slave.CustomFunctionCode σ)}
    (h : ∀ fc cfc, table fc = some cfc → cfc.fc = fc) (fc : UInt8) (cfc : Slave.CustomFunctionCode σ)
    (hcfc : calls.foldl register table fc = some cfc) : cfc.fc = fc := by
  induction calls generalizing table with
  | nil => exact h fc cfc hcfc
  | cons c calls ih =>
    refine ih ?_ hcfc
    intro fc' cfc' hcfc'
    cases c with
    | add cfc =>
      by_cases hfc : fc' = cfc.fc
      · subst hfc
        rw [register, Function.update_self] at hcfc'
        cases hcfc'
        rfl
      · rw [register, Function.update_of_ne hfc] at hcfc'
        exact h fc' cfc' hcfc'
    | remove fc =>
      by_cases hfc : fc' = fc
      · subst hfc
        rw [register, Function.update_self] at hcfc'
        cases hcfc'
      · rw [register, Function.update_of_ne hfc] at hcfc'
        exact h fc' cfc' hcfc'

/-! ## Frames that are delivered -/

/-- The layer publishes the frame: on its own it arrives in one chunk on a new connection, and then
the line is silent. -/
def PublishesFrame (app : RtuApplicationLayer) (frame : Bytes) : Prop :=
  let arrived := step app ({} : State Unit Unit) (.layer (.data ⟨frame, (), ()⟩))
  framedFor () (arrived.2 ++ (feedAll (step app) arrived.1 (silence () true arrived.1)).2) =
    [⟨aduOf frame, frame⟩]

/-- A frame that an entry of the table is for: its CRC is valid and its length is what the entry
predicts for the role. -/
structure FrameOf (role : ApplicationRole) (cfc : CustomFunctionCode) (frame : Bytes) : Prop where
  min : 4 ≤ frame.length
  max : frame.length ≤ 256
  crc : crcMatches frame frame.length = true
  fc : frame.getD 1 0 = cfc.fc
  predicted : (if role = .master then cfc.predictResponseLength else cfc.predictRequestLength) frame =
    .length frame.length

/-- The layer's table is the table of registered codes, and their frames are published. -/
def ReachesFraming (role : ApplicationRole) (app : RtuApplicationLayer)
    (table : UInt8 → Option (Slave.CustomFunctionCode σ)) : Prop :=
  (∀ fc, app.customFunctionCodes fc = (table fc).map (·.toCustomFunctionCode)) ∧
    ∀ fc cfc frame, table fc = some cfc → FrameOf role cfc.toCustomFunctionCode frame →
      PublishesFrame app frame

/-- A frame that is extracted whole from a buffer that holds nothing else is published. -/
theorem publishesFrame_of_extract (app : RtuApplicationLayer) {frame : Bytes}
    (h : tryExtract frame app.isResponse app.customFunctionCodes = .frame 0 frame.length) :
    PublishesFrame app frame := by
  obtain ⟨-, hmin, hmax, -⟩ := tryExtract_frame h
  have hne : frame ≠ [] := by
    intro hnil
    rw [hnil] at hmin
    cases hmin
  have hflush : ∀ (response : Unit) t15,
      Delivers () (flush app response () app.strict t15 frame).2 [frame] := by
    intro response t15
    have hrest : (flush app response () app.strict t15 ([] : Bytes)).2 = ([] : List (Emit Unit Unit)) :=
      rfl
    rw [flush_eq _ _ _ _ _ hne, h]
    simp only [Nat.zero_add, List.drop_zero, List.drop_length, List.take_length, hrest]
    exact ⟨rfl, rfl⟩
  let event : DataEvent Unit Unit := ⟨frame, (), ()⟩
  have hroom : 0 + frame.length ≤ poolSize := by
    rw [poolSize, maxFrameLength]
    omega
  obtain ⟨hnothing, hholds⟩ : (app.receive none event).2 = [] ∧ Holds (app.receive none event).1 frame :=
    consume_fits app () () holds_new (Nat.le_refl _) hroom
  have hlen : (app.receive none event).1.len = frame.length := by
    rw [← hholds.wf.length_asSlice, hholds.bytes]
  have hfresh : step app ({} : State Unit Unit) (.layer (.data event)) =
      (if app.arms none event then
          armTimers app (({} : State Unit Unit).setBuffer () (app.processEntry none event).1) event
        else ({} : State Unit Unit).setBuffer () (app.processEntry none event).1,
        (app.processEntry none event).2) := rfl
  simp only [PublishesFrame]
  rw [hfresh]
  by_cases harms : app.arms none event = true
  · have hentry : app.processEntry none event = (some (app.receive none event).1, []) := by
      rw [processEntry_of_arms app harms, hnothing]
    have hwaiting : Waiting (armTimers app (({} : State Unit Unit).setBuffer ()
        (some (app.receive none event).1)) event) () frame :=
      armTimers_waiting app (buffers_setBuffer ..) hholds (hlen ▸ ((arms_iff app).mp harms).2)
    simp only [harms, hentry, ↓reduceIte, List.nil_append]
    exact (silence_delivers () app hwaiting (fun hnil => absurd hnil hne) hflush true).1
  · obtain ⟨-, -, -, -, hgone, hemits⟩ := flushPool_simulates app () () app.strict hholds.wf
    have hleft : (flush app () () app.strict (app.receive none event).1.t15Expired frame).1.1 = [] := by
      rw [flush_eq _ _ _ _ _ hne, h]
      simp only [Nat.zero_add, List.drop_length]
      rfl
    rw [hholds.bytes] at hgone hemits
    have hentry : app.processEntry none event = (none, (flush app () () app.strict
        (app.receive none event).1.t15Expired frame).2) := by
      rw [processEntry_of_not_arms app harms, hnothing, List.nil_append]
      exact Prod.ext (hgone hleft) hemits
    simp only [harms, hentry, Bool.false_eq_true, ↓reduceIte, silence, buffers_setBuffer, feedAll_nil,
      List.append_nil]
    exact (hflush () _).1

/-- A frame of an entry of the layer's table is extracted whole. -/
theorem FrameOf.extract {role : ApplicationRole} {cfc : CustomFunctionCode} {frame : Bytes}
    (h : FrameOf role cfc frame) {app : RtuApplicationLayer} (hrole : app.role = some role)
    (hentry : app.customFunctionCodes (frame.getD 1 0) = some cfc) :
    tryExtract frame app.isResponse app.customFunctionCodes = .frame 0 frame.length := by
  obtain ⟨hmin, hmax, hcrc, -, hpredicted⟩ := h
  have hrange : minFrameLength ≤ frame.length ∧ frame.length ≤ maxFrameLength := ⟨hmin, hmax⟩
  have hchecked : checkExpected frame frame.length = .frame 0 frame.length := by
    rw [checkExpected, if_neg (not_not_intro hrange), if_neg (Nat.lt_irrefl _), if_pos hcrc]
  have hlong : ¬ frame.length < minFrameLength := Nat.not_lt.mpr hmin
  rw [tryExtract, if_neg hlong, hentry]
  dsimp only
  have hpredictor : (if app.isResponse = true then cfc.predictResponseLength
      else cfc.predictRequestLength) frame = .length frame.length := by
    rw [← hpredicted, RtuApplicationLayer.isResponse, hrole]
    cases role <;> rfl
  rw [hpredictor]
  exact hchecked

/-! ## Calls on the layer, calls on its owner -/

/-- Calls on the layer keep its table of predictors. -/
theorem table_directCalls (calls : List (RegistrationCall σ)) (app : RtuApplicationLayer)
    (table : UInt8 → Option (Slave.CustomFunctionCode σ))
    (h : ∀ fc, app.customFunctionCodes fc = (table fc).map (·.toCustomFunctionCode)) :
    (calls.foldl directCall app).role = app.role ∧
      ∀ fc, (calls.foldl directCall app).customFunctionCodes fc =
        (calls.foldl register table fc).map (·.toCustomFunctionCode) := by
  induction calls generalizing app table with
  | nil => exact ⟨rfl, h⟩
  | cons c calls ih =>
    have hnext : ∀ fc, (directCall app c).customFunctionCodes fc =
        (register table c fc).map (·.toCustomFunctionCode) := by
      intro fc
      cases c with
      | add cfc =>
        by_cases hfc : fc = cfc.fc
        · subst hfc
          simp only [directCall, RtuApplicationLayer.addCustomFunctionCode, register,
            Function.update_self, Option.map_some]
        · simp only [directCall, RtuApplicationLayer.addCustomFunctionCode, register,
            Function.update_of_ne hfc, h]
      | remove fc' =>
        by_cases hfc : fc = fc'
        · subst hfc
          simp only [directCall, RtuApplicationLayer.removeCustomFunctionCode, register,
            Function.update_self, Option.map_none]
        · simp only [directCall, RtuApplicationLayer.removeCustomFunctionCode, register,
            Function.update_of_ne hfc, h]
    obtain ⟨hrole, htable⟩ := ih (directCall app c) (register table c) hnext
    refine ⟨hrole.trans ?_, htable⟩
    cases c <;> rfl

/-- **Calls on the layer itself reach its framing.** -/
theorem directCalls_reach (role : ApplicationRole) (layerType : PhysicalLayerType)
    (serialIntervals : Nat × Nat) (calls : List (RegistrationCall σ)) :
    ReachesFraming role
      (calls.foldl directCall (RtuApplicationLayer.new layerType serialIntervals (some role)))
      (registered calls) := by
  obtain ⟨hrole, htable⟩ := table_directCalls calls
    (RtuApplicationLayer.new layerType serialIntervals (some role)) (fun _ => none) fun _ => rfl
  refine ⟨htable, ?_⟩
  intro fc cfc frame hcfc hframe
  have hfc : cfc.fc = fc := foldl_register_fc calls (fun _ _ h => by cases h) fc cfc hcfc
  apply publishesFrame_of_extract
  generalize calls.foldl directCall _ = app at hrole htable ⊢
  have hentry : app.customFunctionCodes (frame.getD 1 0) = some cfc.toCustomFunctionCode := by
    rw [hframe.fc, hfc, htable]
    exact congrArg (Option.map _) hcfc
  exact hframe.extract hrole hentry

/-- A call on the owner leaves its layer as it is. -/
theorem application_call (owner : Owner σ) (c : RegistrationCall σ) :
    (owner.call c).application = owner.application := by
  cases owner <;> cases c <;> rfl

theorem application_after (owner : Owner σ) (calls : List (RegistrationCall σ)) :
    (owner.after calls).application = owner.application := by
  induction calls generalizing owner with
  | nil => rfl
  | cons c calls ih => exact (ih (owner.call c)).trans (application_call owner c)

theorem application_new (role : ApplicationRole) (layerType : PhysicalLayerType)
    (serialIntervals : Nat × Nat) : (Owner.new role layerType serialIntervals : Owner σ).application =
      .new layerType serialIntervals (some role) := by
  cases role <;> rfl

/-- The dispatch table of a slave holds what is registered. -/
theorem dispatchTable_after (slave : ModbusSlave RtuApplicationLayer σ)
    (calls : List (RegistrationCall σ)) :
    ∃ slave', (Owner.slave slave).after calls = .slave slave' ∧
      slave'.customFunctionCodes = calls.foldl register slave.customFunctionCodes := by
  induction calls generalizing slave with
  | nil => exact ⟨slave, rfl, rfl⟩
  | cons c calls ih =>
    cases c with
    | add cfc => exact ih (slave.addCustomFunctionCode cfc)
    | remove fc => exact ih (slave.removeCustomFunctionCode fc)

/-- **Calls on the owner do not reach the framing of its layer.** For a master or a slave that owns an
RTU layer, over either transport, and every sequence of calls made on it: the layer's table holds
exactly what is registered and the frames of registered codes are published, exactly when every call
that added a code was followed by one that removed it. -/
theorem ownerCalls_reach_iff (role : ApplicationRole) (layerType : PhysicalLayerType)
    (serialIntervals : Nat × Nat) (calls : List (RegistrationCall σ)) :
    ReachesFraming role ((Owner.new role layerType serialIntervals).after calls).application
        (registered calls) ↔
      ∀ before cfc after, calls = before ++ .add cfc :: after → .remove cfc.fc ∈ after := by
  rw [application_after, application_new]
  constructor
  · rintro ⟨htable, -⟩ before cfc after hcalls
    have hnone : registered calls cfc.fc = none := Option.map_eq_none_iff.mp (htable cfc.fc).symm
    exact (registered_eq_none_iff calls cfc.fc).mp hnone before cfc after hcalls rfl
  · intro hwithdrawn
    have hnone : ∀ fc, registered calls fc = none := by
      intro fc
      refine (registered_eq_none_iff calls fc).mpr ?_
      rintro before cfc after hcalls rfl
      exact hwithdrawn before cfc after hcalls
    refine ⟨?_, ?_⟩
    · intro fc
      rw [hnone fc]
      rfl
    · intro fc cfc frame hcfc
      cases (hnone fc).symm.trans hcfc

/-- A code for frames of six bytes. -/
def sixBytes : Slave.CustomFunctionCode Unit where
  fc := 0x65
  predictRequestLength := fun _ => .length 6
  predictResponseLength := fun _ => .length 6
  handle := none

/-- A code registered through a slave: its frame is not published. -/
theorem ownerCall_unpublished :
    ¬ ReachesFraming .slave ((Owner.new .slave .net (0, 0)).after [.add sixBytes]).application
      (registered [.add sixBytes]) := by
  rintro ⟨-, hframes⟩
  have hregistered : registered [.add sixBytes] sixBytes.fc = some sixBytes := by
    simp only [registered, List.foldl_cons, List.foldl_nil, register, Function.update_self]
  have hpublished := hframes sixBytes.fc sixBytes (Rtu.encode ⟨none, 1, 0x65, [0, 0]⟩) hregistered
    ⟨by decide, by decide, by decide +kernel, rfl, rfl⟩
  have hnone : ¬ PublishesFrame (.new .net (0, 0) (some .slave))
      (Rtu.encode ⟨none, 1, 0x65, [0, 0]⟩) := by
    unfold PublishesFrame
    decide +kernel
  exact hnone hpublished

end RsModbus.Registration
