import RsModbus.Laws.Identification

/-!
# Individual access to the device identification

* `handleFc43_14_individual`: what the handler replies to a request with the read code 0x04
  (`individualAnswer`).
* `individual_access_iff`: for which identifications it is the object that the request asks for.

The handler walks the object list from the requested object on, as it does for the other read codes.
A response starts with 10 bytes of 253, so a value of 242 to 245 bytes passes the check of its length
and fits into no response: the walk goes on to the objects behind it.
-/

namespace RsModbus.Slave

variable {σ : Type}

/-! ## Answers -/

/-- The identification of a model: a map from object ids to values. -/
structure IdentificationMap where
  entries : List (UInt8 × Bytes)
  nodup : (entries.map (·.1)).Nodup

/-- The value of an object, where the basic objects default to `null`. -/
def IdentificationMap.value (map : IdentificationMap) (id : UInt8) : Option Bytes :=
  match map.entries.find? (·.1 == id) with
  | some o => some o.2
  | none => if id ≤ 0x02 then some nullValue else none

/-- The ids that name no object. -/
def Reserved (id : UInt8) : Prop := id > 0x06 ∧ id < 0x80

instance (id : UInt8) : Decidable (Reserved id) := inferInstanceAs (Decidable (_ ∧ _))

/-- The answer to a request with the read code 0x04: an exception, or the data of the response. -/
def individualAnswer (requested : UInt8) (identification : List (UInt8 × Bytes)) :
    Except ErrorCode Bytes := do
  identificationData 0x04 (← selectObject 0x04 requested) identification

/-- The request is answered with its object and no other, or refused where there is none. -/
structure ReturnsRequested (map : IdentificationMap) (id : UInt8) : Prop where
  requested : ∀ value, map.value id = some value → value.length ≤ 245 → ¬ Reserved id →
    ∃ conformity, individualAnswer id map.entries =
      .ok ([meiReadDeviceId, 0x04, conformity, 0x00, 0x00, 1] ++ encodeObject (id, value))
  refused : map.value id = none ∨ Reserved id →
    individualAnswer id map.entries = .error .illegalDataAddress
  only : ∀ data, individualAnswer id map.entries = .ok data →
    ∃ (conformity more next : UInt8) (objects : List (UInt8 × Bytes)),
      data = [meiReadDeviceId, 0x04, conformity, more, next, UInt8.ofNat objects.length] ++
        objects.flatMap encodeObject ∧ ∀ o ∈ objects, o.1 = id

/-- The handler replies with the answer. -/
theorem handleFc43_14_individual (ctx : Context) (model : ModbusSlaveModel σ)
    (adu : ApplicationDataUnit) (response : SlaveResponseFn σ) {id : UInt8}
    (hdata : adu.data = [meiReadDeviceId, 0x04, id]) {w w' : World σ}
    {identification : List (UInt8 × Bytes)}
    (hcall : model.call ctx.checks .readDeviceIdentification w = (.ok (.ok identification), w')) :
    ∃ u, u.replies = w.replies ∧ handleFc43_14 ctx model adu response w =
      (match individualAnswer id identification with
        | .ok data => reply ctx adu response data
        | .error code => responseError ctx adu response (getErrorByCode code)) u := by
  have hreplies := replies_call model ctx.checks .readDeviceIdentification w
  rw [hcall] at hreplies
  rw [handleFc43_14, hdata]
  simp only [ne_eq, not_true_eq_false, ↓reduceIte, individualAnswer]
  cases selectObject 0x04 id with
  | error code => exact ⟨w, rfl, rfl⟩
  | ok objectId =>
    refine ⟨w', hreplies, ?_⟩
    dsimp only
    rw [SlaveM.bind_of_ok hcall]
    simp only [answer, bind, Except.bind]
    cases identificationData 0x04 objectId identification <;> rfl

/-! ## The object list -/

section Values

variable {map : IdentificationMap} {id : UInt8} {value : Bytes}

/-- The value of an object is the one in the list that the handler makes. -/
theorem mem_objectList_iff_value :
    (id, value) ∈ objectList map.entries ↔ map.value id = some value := by
  rw [mem_objectList map.nodup, mem_basicObjects, IdentificationMap.value]
  cases hfind : map.entries.find? (·.1 == id) with
  | none =>
    have hout : id ∉ map.entries.map (·.1) := by
      intro hmem
      obtain ⟨o, ho, rfl⟩ := List.mem_map.mp hmem
      exact List.find?_eq_none.mp hfind o ho (beq_self_eq_true o.1)
    have hnone : (id, value) ∉ map.entries := fun h => hout (List.mem_map_of_mem h)
    simp only [hnone, hout, not_false_eq_true, and_true, false_or, Option.ite_none_right_eq_some,
      Option.some.injEq]
    exact and_congr_right fun _ => eq_comm
  | some o =>
    obtain ⟨key, v⟩ := o
    have hmem := List.mem_of_find?_eq_some hfind
    obtain rfl : key = id := by simpa using List.find?_some hfind
    have hin : key ∈ map.entries.map (·.1) := List.mem_map_of_mem hmem
    constructor
    · rintro (h | h)
      · rw [find?_objects map.nodup h] at hfind
        cases hfind
        rfl
      · exact absurd hin h.2
    · rintro h
      cases h
      exact .inl hmem

theorem any_objectList : (objectList map.entries).any (·.1 == id) = (map.value id).isSome := by
  apply Bool.eq_iff_iff.mpr
  rw [List.any_eq_true, Option.isSome_iff_exists]
  constructor
  · rintro ⟨⟨key, v⟩, ho, hkey⟩
    obtain rfl := beq_iff_eq.mp hkey
    exact ⟨v, mem_objectList_iff_value.mp ho⟩
  · rintro ⟨v, hv⟩
    exact ⟨(id, v), mem_objectList_iff_value.mpr hv, beq_self_eq_true id⟩

/-- The list is in the order of the ids. -/
theorem exists_objectList_split (hvalue : map.value id = some value) :
    ∃ before rest, objectList map.entries = before ++ (id, value) :: rest ∧
      ∀ o ∈ before, o.1 < id := by
  obtain ⟨before, rest, hlist⟩ := List.append_of_mem (mem_objectList_iff_value.mpr hvalue)
  have hascending := objectList_ascending map.entries
  rw [hlist] at hascending
  obtain ⟨-, -, hcross⟩ := List.pairwise_append.mp hascending
  exact ⟨before, rest, hlist, fun o ho => hcross o ho _ List.mem_cons_self⟩

/-- An object that fits into a response is the first and last to be chosen. -/
theorem chooseObjects_individual (hvalue : map.value id = some value) (hfits : value.length ≤ 241) :
    chooseObjects 0x04 id (objectList map.entries) 10 0 [] = some (0, [id]) := by
  obtain ⟨before, rest, hlist, hbefore⟩ := exists_objectList_split hvalue
  rw [hlist, chooseObjects_skip hbefore, chooseObjects, if_neg (UInt8.lt_irrefl id), if_neg (by omega),
    if_neg (by omega), if_pos rfl, List.nil_append]

/-- A value longer than the handler's limit is refused. -/
theorem chooseObjects_tooLong (hvalue : map.value id = some value) (hlong : 245 < value.length) :
    chooseObjects 0x04 id (objectList map.entries) 10 0 [] = none := by
  obtain ⟨before, rest, hlist, hbefore⟩ := exists_objectList_split hvalue
  rw [hlist, chooseObjects_skip hbefore, chooseObjects, if_neg (UInt8.lt_irrefl id), if_pos hlong]

end Values

/-! ## What is answered -/

section Answers

variable {map : IdentificationMap} {id : UInt8} {value : Bytes}

theorem individualAnswer_reserved (identification : List (UInt8 × Bytes)) (h : Reserved id) :
    individualAnswer id identification = .error .illegalDataAddress := by
  have hselect : selectObject 0x04 id = .error .illegalDataAddress := if_pos h
  rw [individualAnswer, hselect]
  rfl

theorem individualAnswer_eq (identification : List (UInt8 × Bytes)) (h : ¬ Reserved id) :
    individualAnswer id identification = identificationData 0x04 id identification := by
  have hselect : selectObject 0x04 id = .ok id := if_neg h
  rw [individualAnswer, hselect]
  rfl

theorem individualAnswer_absent (hreserved : ¬ Reserved id) (h : map.value id = none) :
    individualAnswer id map.entries = .error .illegalDataAddress := by
  have hany : (objectList map.entries).any (·.1 == id) = false := by rw [any_objectList, h]; rfl
  rw [individualAnswer_eq _ hreserved, identificationData, hany]
  rfl

/-- The walk of the handler, for an object that there is. -/
theorem individualAnswer_present (hreserved : ¬ Reserved id) (hvalue : map.value id = some value) :
    individualAnswer id map.entries =
      match chooseObjects 0x04 id (objectList map.entries) 10 0 [] with
      | none => .error .serverDeviceFailure
      | some (lastId, ids) =>
        .ok ([meiReadDeviceId, 0x04, conformityLevel (objectList map.entries),
          if lastId = 0 then 0x00 else 0xff, lastId, UInt8.ofNat ids.length] ++
            objectBytes (objectList map.entries) ids) := by
  have hany : (objectList map.entries).any (·.1 == id) = true := by
    rw [any_objectList, hvalue]
    rfl
  rw [individualAnswer_eq _ hreserved, identificationData, hany]
  rfl

/-- An object that fits into a response is returned. -/
theorem individualAnswer_fits (hreserved : ¬ Reserved id) (hvalue : map.value id = some value)
    (hfits : value.length ≤ 241) :
    individualAnswer id map.entries =
      .ok ([meiReadDeviceId, 0x04, conformityLevel (objectList map.entries), 0x00, 0x00, 1] ++
        encodeObject (id, value)) := by
  have hbytes : objectBytes (objectList map.entries) [id] = encodeObject (id, value) := by
    have hmem : ∀ o ∈ [(id, value)], o ∈ objectList map.entries := by
      intro o ho
      rw [List.mem_singleton.mp ho]
      exact mem_objectList_iff_value.mpr hvalue
    refine (objectBytes_chosen (nodup_objectList map.entries) hmem).trans ?_
    rw [List.flatMap_cons, List.flatMap_nil, List.append_nil]
  rw [individualAnswer_present hreserved hvalue, chooseObjects_individual hvalue hfits]
  simp only [hbytes, ↓reduceIte, List.length_singleton]
  rfl

theorem individualAnswer_tooLong (hreserved : ¬ Reserved id) (hvalue : map.value id = some value)
    (hlong : 245 < value.length) :
    individualAnswer id map.entries = .error .serverDeviceFailure := by
  rw [individualAnswer_present hreserved hvalue, chooseObjects_tooLong hvalue hlong]

/-- No response has room for a value of more than 241 bytes. -/
theorem length_of_individualAnswer {data : Bytes} (h : individualAnswer id map.entries = .ok data) :
    data.length ≤ 249 := by
  have hreserved : ¬ Reserved id := by
    intro hreserved
    rw [individualAnswer_reserved _ hreserved] at h
    cases h
  rw [individualAnswer_eq _ hreserved] at h
  obtain ⟨conformity, more, lastId, chosen, rfl, htotal⟩ := identificationData_ok h
  rw [List.length_append, length_encodeObjects]
  show 6 + _ ≤ 249
  omega

end Answers

/-- **When individual access returns the object asked for**: when no object of 242 to 245 bytes is asked
for. -/
theorem individual_access_iff (map : IdentificationMap) (id : UInt8) :
    ReturnsRequested map id ↔ ∀ value, map.value id = some value →
      Reserved id ∨ value.length ≤ 241 ∨ 245 < value.length := by
  constructor
  · intro h value hvalue
    by_contra hno
    obtain ⟨hreserved, hlong, hshort⟩ : ¬ Reserved id ∧ 241 < value.length ∧ value.length ≤ 245 := by
      simpa only [not_or, Nat.not_le, Nat.not_lt] using hno
    obtain ⟨conformity, hanswer⟩ := h.requested value hvalue hshort hreserved
    have hlen := length_of_individualAnswer hanswer
    rw [List.length_append, length_encodeObject, objectSize] at hlen
    have hheader : [meiReadDeviceId, 0x04, conformity, 0x00, 0x00, 1].length = 6 := rfl
    dsimp only at hlen
    omega
  · intro h
    by_cases hreserved : Reserved id
    · have hanswer := individualAnswer_reserved map.entries hreserved
      refine ⟨fun _ _ _ hnot => absurd hreserved hnot, fun _ => hanswer, ?_⟩
      intro data hdata
      cases hanswer.symm.trans hdata
    cases hvalue : map.value id with
    | none =>
      have hanswer := individualAnswer_absent hreserved hvalue
      refine ⟨?_, fun _ => hanswer, ?_⟩
      · intro v hv
        cases hvalue.symm.trans hv
      · intro data hdata
        cases hanswer.symm.trans hdata
    | some value =>
      have hpresent : ¬ (map.value id = none ∨ Reserved id) := by
        rintro (hnone | hres)
        · cases hvalue.symm.trans hnone
        · exact hreserved hres
      rcases (h value hvalue).resolve_left hreserved with hfits | hlong
      · have hanswer := individualAnswer_fits hreserved hvalue hfits
        refine ⟨?_, fun hrefused => absurd hrefused hpresent, ?_⟩
        · intro v hv _ _
          cases hvalue.symm.trans hv
          exact ⟨_, hanswer⟩
        · intro data hdata
          cases hanswer.symm.trans hdata
          refine ⟨conformityLevel (objectList map.entries), 0x00, 0x00, [(id, value)], ?_, ?_⟩
          · rw [List.flatMap_cons, List.flatMap_nil, List.append_nil]
            rfl
          · intro o ho
            rw [List.mem_singleton.mp ho]
      · have hanswer := individualAnswer_tooLong hreserved hvalue hlong
        refine ⟨?_, fun hrefused => absurd hrefused hpresent, ?_⟩
        · intro v hv hshort _
          cases hvalue.symm.trans hv
          exact absurd hlong (Nat.not_lt.mpr hshort)
        · intro data hdata
          cases hanswer.symm.trans hdata

/-- A product code of 242 bytes: its request is answered with the revision. -/
theorem individual_access_skips :
    ¬ ReturnsRequested ⟨[(0x01, List.replicate 242 0x61)], by decide⟩ 0x01 ∧
      individualAnswer 0x01 [(0x01, List.replicate 242 0x61)] =
        .ok ([meiReadDeviceId, 0x04, 0x81, 0xff, 0x01, 1] ++ encodeObject (0x02, nullValue)) := by
  have hlist : objectList [(0x01, List.replicate 242 0x61)] =
      [(0x00, nullValue), (0x01, List.replicate 242 0x61), (0x02, nullValue)] :=
    List.mergeSort_of_pairwise (by decide)
  have hanswer : individualAnswer 0x01 [(0x01, List.replicate 242 0x61)] =
      .ok ([meiReadDeviceId, 0x04, 0x81, 0xff, 0x01, 1] ++ encodeObject (0x02, nullValue)) := by
    rw [individualAnswer_eq _ (by decide), identificationData, hlist]
    decide +kernel
  refine ⟨?_, hanswer⟩
  intro h
  have hshort : (List.replicate 242 (0x61 : UInt8)).length ≤ 245 := by
    rw [List.length_replicate]
    decide
  obtain ⟨conformity, hrequested⟩ := h.requested _ rfl hshort (by decide)
  cases hanswer.symm.trans hrequested

end RsModbus.Slave
