import RsModbus.Laws.CustomExchange
import RsModbus.Laws.ReplyFrames

/-!
# A call of `report_server_id`

`Link.serverId_reported`: the caller of FC 17 says how many bytes the id has. What it gets is the model's
payload cut there, so the id, the run indicator and the additional data are the model's exactly when the
caller's length is; a payload that is not longer than this length, a failure of the model and a payload
too long for its byte count fail the call.
-/

namespace RsModbus

open Library Master Slave

variable {σ : Type}

/-! ## The cut -/

/-- A payload, read with an id of `n` bytes. -/
def cutServerId (n : Nat) (payload : Bytes) : Except ModbusError ReportedServerId :=
  if n < payload.length then
    .ok ⟨payload.take n, payload.getD n 0 == 0xff, payload.drop (n + 1)⟩
  else .error .invalidResponse

/-- The id that is on the wire: an empty one is replaced by the unit. -/
def shownServerId (unit : UInt8) (serverId : ServerId) : Bytes :=
  if serverId.serverId.isEmpty then [unit] else serverId.serverId

/-- The bytes of the run indicator. -/
theorem runIndicator_eq (running : Bool) :
    ((if running then 0xff else 0x00 : UInt8) == 0xff) = running := by
  cases running <;> rfl

/-- The cut is in the right place exactly if the length is that of the id. -/
theorem cutServerId_eq_iff {n : Nat} (unit : UInt8) (serverId : ServerId) :
    cutServerId n (serverIdPayload unit serverId) = .ok ⟨shownServerId unit serverId,
        serverId.runIndicatorStatus, serverId.additionalData⟩ ↔
      n = (shownServerId unit serverId).length := by
  have hpayload : serverIdPayload unit serverId = shownServerId unit serverId ++
      (if serverId.runIndicatorStatus then 0xff else 0x00) :: serverId.additionalData := rfl
  constructor
  · intro h
    unfold cutServerId at h
    split at h
    next hlt =>
      injection h with h
      injection h with hid
      rw [← hid, List.length_take]
      omega
    next => cases h
  · rintro rfl
    have hlt : (shownServerId unit serverId).length < (serverIdPayload unit serverId).length := by
      rw [hpayload, List.length_append, List.length_cons]
      omega
    rw [cutServerId, if_pos hlt, hpayload, List.take_left, List.getD_append_right _ _ _ _ (Nat.le_refl _),
      Nat.sub_self, List.getD_cons_zero, runIndicator_eq, ← List.drop_drop, List.drop_left]
    rfl

/-- What a caller who expects `n` bytes of id makes of what the model reports. -/
def serverIdOutcome (unit : UInt8) (n : Nat) :
    Except ModbusError ServerId → Except ModbusError ReportedServerId
  | .ok serverId =>
    if 255 < serverId.byteCount then .error .invalidResponse
    else cutServerId n (serverIdPayload unit serverId)
  | .error _ => .error .invalidResponse

/-- The method reads the payload behind the byte count. -/
theorem parse_reportServerId (unit : UInt8) (n : Nat) (count : UInt8) (payload : Bytes) :
    (reportServerId unit n).parse (count :: payload) = .ok (cutServerId n payload) := by
  unfold cutServerId
  simp only [reportServerId, List.length_cons]
  by_cases hlt : n < payload.length
  · rw [if_neg (by omega), if_pos hlt, Nat.add_comm 1 n]
    rfl
  · rw [if_pos (by omega), if_neg hlt]

/-! ## The handler -/

namespace Slave

section Handler

variable (ctx : Context) {model : ModbusSlaveModel σ} (adu : ApplicationDataUnit)
  (response : SlaveResponseFn σ) {w w' : World σ}

theorem handleFc17_failed (hdata : adu.data = []) {e : ModbusError}
    (hcall : model.call ctx.checks .reportServerId w = (.ok (.error e), w')) :
    handleFc17 ctx model adu response w = responseError ctx adu response e w' := by
  rw [handleFc17, hdata, if_neg (by decide), SlaveM.bind_of_ok hcall]
  rfl

theorem byteCount_eq (serverId : ServerId) (unit : UInt8) :
    (if serverId.serverId.isEmpty then [unit] else serverId.serverId).length + 1 +
      serverId.additionalData.length = serverId.byteCount := by
  rw [← length_serverIdPayload unit, serverIdPayload, List.length_append, List.length_cons]
  omega

theorem handleFc17_oversized (hdata : adu.data = []) {serverId : ServerId}
    (hcall : model.call ctx.checks .reportServerId w = (.ok (.ok serverId), w'))
    (hlong : 255 < serverId.byteCount) :
    handleFc17 ctx model adu response w =
      responseError ctx adu response (getErrorByCode .serverDeviceFailure) w' := by
  rw [handleFc17, hdata, if_neg (by decide), SlaveM.bind_of_ok hcall]
  simp only [answer, byteCount_eq, gt_iff_lt, hlong, ↓reduceIte]

theorem handleFc17_replied (hdata : adu.data = []) {serverId : ServerId}
    (hcall : model.call ctx.checks .reportServerId w = (.ok (.ok serverId), w'))
    (hshort : ¬ 255 < serverId.byteCount) :
    handleFc17 ctx model adu response w =
      reply ctx adu response (serverIdData model.unit serverId) w' := by
  rw [handleFc17, hdata, if_neg (by decide), SlaveM.bind_of_ok hcall, serverIdData]
  simp only [answer, byteCount_eq, gt_iff_lt, hshort, ↓reduceIte]

theorem dispatch_serverId (customFcs : UInt8 → Option (CustomFunctionCode σ)) (hfc : adu.fc = 0x11) :
    dispatch ctx customFcs model adu response = handleFc17 ctx model adu response := by
  rw [dispatch, hfc]
  rfl

end Handler

end Slave

/-! ## The call -/

/-- With no custom codes registered, a layer publishes what it publishes. -/
theorem publishesWith_none (protocol : ApplicationProtocol) (settings : LayerSettings)
    (role : ApplicationRole) (chunks : List Bytes) :
    publishesWith (fun _ => none) protocol settings role chunks =
      publishes protocol settings role chunks := by
  cases protocol <;> rfl

namespace Link

/-- The link, whose layers may have custom codes but have none. -/
def plain (l : Link σ) : CustomLink σ where
  toLink := l
  masterTable _ := none
  slaveTable _ := none

variable {l : Link σ}

theorem publishes_plain : publishesWith l.plain.masterTable = publishes := by
  funext protocol settings role chunks
  exact publishesWith_none protocol settings role chunks

theorem serve_plain (bytes : Bytes) (w : World σ) : l.plain.serve bytes w = l.serve bytes w := by
  rw [CustomLink.serve, serve]
  exact congrArg (fun published => List.foldl _ w published) (publishesWith_none ..)

/-- A call is one whose layers have no custom codes. -/
theorem request_plain {τ : Type} (unit : UInt8) (m : MasterRequest τ) (w : World σ) :
    l.plain.request unit m w = l.request unit m w := by
  rw [CustomLink.request, request]
  dsimp only
  rw [serve_plain, publishes_plain]
  rfl

section Calls

variable {unit : UInt8} {model : ModbusSlaveModel σ} {w w₁ w₂ : World σ}

theorem sent_serverId (unit : UInt8) (n : Nat) :
    (reportServerId unit n).sent (l.tidFor unit) = ⟨l.tidFor unit, unit, 0x11, []⟩ :=
  sent_eq (l.tidFor unit) rfl

/-- What the slave does with a request whose handler comes to an end. -/
theorem serve_serverId (hunit : unit ≠ 0)
    (hmodel : l.models.find? (fun m => m.unit = unit) = some model) (n : Nat)
    (hintercept : model.call l.checks (.intercept 0x11 []) w = (.ok (.ok none), w₁))
    (answer : ApplicationDataUnit) (hkept : w₂.replies = w.replies)
    (hhandled : handleFc17 l.context model ⟨l.tidFor unit, unit, 0x11, []⟩ (sendReply l.context) w₁ =
      sendReply l.context (encode l.protocol l.slave answer) w₂) :
    l.serve (encode l.protocol l.master ((reportServerId unit n).sent (l.tidFor unit))) w =
      { w₂ with replies := w.replies ++ [encode l.protocol l.slave answer] } := by
  have hsend : Sendable false ⟨none, unit, 0x11, []⟩ :=
    sendable_fixed unit [] (by decide) rfl (by decide : 0 ≤ 252)
  have hfits : Fits l.protocol false ⟨l.tidFor unit, unit, 0x11, []⟩ :=
    ⟨⟨hsend.length, hsend.predicted⟩, l.tidFor_isSome hunit⟩
  rw [sent_serverId]
  refine serve_of_dispatch hunit hmodel rfl hfits hintercept ?_
  rw [dispatch_serverId _ _ _ _ rfl, hhandled, ← hkept]
  rfl

/-- A counted payload is a response that the master receives. -/
theorem carried_serverId {protocol : ApplicationProtocol} {tid : Option UInt16} {payload : Bytes}
    (htid : tid.isSome ↔ protocol = .tcp) (hlt : payload.length < 256)
    (hmax : payload.length < maxData protocol) :
    Carried (fun _ => none) protocol true
      ⟨tid, unit, 0x11, UInt8.ofNat payload.length :: payload⟩ := by
  refine ⟨htid, hmax, fun _ => .standard rfl ?_⟩
  rw [Rtu.length_encode]
  exact predicted_counted (.inr (.inr (.inr (.inr (.inl rfl))))) hlt rfl

/-- The check of the method: as many bytes as are counted. -/
theorem runPreChecks_serverId {n : Nat} {tid : Option UInt16} {payload : Bytes}
    (hlt : payload.length < 256) :
    runPreChecks ⟨tid, unit, 0x11, UInt8.ofNat payload.length :: payload⟩
      (reportServerId unit n).extra = none := by
  have hlen : (UInt8.ofNat payload.length :: payload).length =
      1 + (UInt8.ofNat payload.length).toNat := by
    rw [toNat_byteCount hlt, List.length_cons, Nat.add_comm]
  simp only [reportServerId, runPreChecks, hlen, Nat.lt_irrefl, ne_eq, not_true_eq_false, ↓reduceIte]

section Handled

variable (hunit : unit ≠ 0) (hmodel : l.models.find? (fun m => m.unit = unit) = some model) (n : Nat)
  (hintercept : model.call l.checks (.intercept 0x11 []) w = (.ok (.ok none), w₁))
  (hkept : w₂.replies = w.replies)

include hunit hmodel hintercept hkept

/-- A call that is answered with an exception. -/
theorem serverId_refused {e : ModbusError}
    (hhandled : handleFc17 l.context model ⟨l.tidFor unit, unit, 0x11, []⟩ (sendReply l.context) w₁ =
      responseError l.context ⟨l.tidFor unit, unit, 0x11, []⟩ (sendReply l.context) e w₂) :
    ∃ raw, l.request unit (reportServerId unit n) w = (.ok (.error .invalidResponse),
      { w₂ with replies := w.replies ++ [raw] }) := by
  let answer : ApplicationDataUnit :=
    ⟨l.tidFor unit, unit, 0x11 ||| exceptionOffset, [(getCodeByError e).asU8]⟩
  have hpredicted := predicted_exception ⟨l.tidFor unit, unit, 0x11, []⟩ (getCodeByError e).asU8
  refine ⟨_, request_of_rejected hunit answer
    (serve_serverId hunit hmodel n hintercept answer hkept hhandled)
    ⟨⟨(by decide : 1 ≤ 252), hpredicted⟩, l.tidFor_isSome hunit⟩ (by rw [sent_serverId]; rfl)
    (runPreChecks_otherCode rfl ?_)⟩
  exact (by decide : (0x11 : UInt8) ||| exceptionOffset ≠ 0x11)

/-- A call that is answered with a payload. -/
theorem serverId_cut {payload : Bytes} (hlt : payload.length < 256)
    (hmax : payload.length < maxData l.protocol)
    (hhandled : handleFc17 l.context model ⟨l.tidFor unit, unit, 0x11, []⟩ (sendReply l.context) w₁ =
      reply l.context ⟨l.tidFor unit, unit, 0x11, []⟩ (sendReply l.context)
        (UInt8.ofNat payload.length :: payload) w₂) :
    ∃ raw, l.request unit (reportServerId unit n) w =
      (.ok ((cutServerId n payload).map fun data => some ⟨l.tidFor unit, unit, 0x11, data, raw⟩),
        { w₂ with replies := w.replies ++ [raw] }) := by
  have hserved := serve_serverId hunit hmodel n hintercept
    ⟨l.tidFor unit, unit, 0x11, UInt8.ofNat payload.length :: payload⟩ hkept hhandled
  rw [← serve_plain] at hserved
  refine ⟨_, (request_plain unit _ w).symm.trans (l.plain.request_of_received hunit hserved
    (carried_serverId (l.tidFor_isSome hunit) hlt hmax) (by rw [sent_serverId]; rfl)
    (runPreChecks_finalChecks rfl rfl rfl (runPreChecks_serverId hlt)) ?_)⟩
  exact parse_reportServerId unit n _ payload

end Handled

end Calls

end Link

end RsModbus
