import RsModbus.Library.Paging
import RsModbus.Laws.Packing

/-!
# The objects of a device identification

The handler of FC 43 merges the model's identification into a list of objects in ascending order, one
for each id (`objectList_ascending`), and chooses the objects of a response within 253 bytes. For the
read code 0x03 the choice is one page of the list (`identificationData_page`).

Three loops walk the objects of a response: the slave's that writes them, the RTU predictor's, and
the master's that checks and reads them. Each is told on the same bytes, `encodeObject` of the chosen
objects.
-/

namespace RsModbus.Slave

open Library

/-! ## The object list -/

section Merge

variable {objects : List (UInt8 × Bytes)} {entry o : UInt8 × Bytes}

theorem mergeObject_cons (o : UInt8 × Bytes) (objects : List (UInt8 × Bytes))
    (entry : UInt8 × Bytes) : mergeObject (o :: objects) entry =
      if o.1 = entry.1 then entry :: objects else o :: mergeObject objects entry := by
  rw [mergeObject, List.findIdx?_cons]
  by_cases h : o.1 = entry.1
  · rw [if_pos (beq_iff_eq.mpr h), if_pos h]
    rfl
  · rw [if_neg (fun h' => h (beq_iff_eq.mp h')), if_neg h, mergeObject]
    cases objects.findIdx? (·.1 == entry.1) with
    | none => rfl
    | some pos => rfl

/-- The ids after a merge. -/
theorem ids_mergeObject (objects : List (UInt8 × Bytes)) (entry : UInt8 × Bytes) :
    (mergeObject objects entry).map (·.1) =
      if entry.1 ∈ objects.map (·.1) then objects.map (·.1)
      else objects.map (·.1) ++ [entry.1] := by
  induction objects with
  | nil => rfl
  | cons o objects ih =>
    rw [mergeObject_cons, List.map_cons]
    by_cases h : o.1 = entry.1
    · rw [if_pos h, if_pos (h ▸ List.mem_cons_self), List.map_cons, h]
    · rw [if_neg h, List.map_cons, ih]
      by_cases hmem : entry.1 ∈ objects.map (·.1)
      · rw [if_pos hmem, if_pos (List.mem_cons_of_mem _ hmem)]
      · rw [if_neg hmem, if_neg, List.cons_append]
        intro h'
        rcases List.mem_cons.mp h' with h' | h'
        · exact h h'.symm
        · exact hmem h'

theorem nodup_mergeObject (h : (objects.map (·.1)).Nodup) :
    ((mergeObject objects entry).map (·.1)).Nodup := by
  rw [ids_mergeObject]
  split
  · exact h
  next hnew =>
    refine List.nodup_append.mpr ⟨h, List.nodup_singleton _, ?_⟩
    intro a ha b hb hab
    rw [List.mem_singleton] at hb
    exact hnew (hb ▸ hab ▸ ha)

theorem mem_mergeObject (h : (objects.map (·.1)).Nodup) :
    o ∈ mergeObject objects entry ↔ o = entry ∨ o ∈ objects ∧ o.1 ≠ entry.1 := by
  induction objects with
  | nil =>
    show o ∈ [entry] ↔ _
    simp only [List.mem_singleton, List.not_mem_nil, false_and, or_false]
  | cons x objects ih =>
    rw [List.map_cons, List.nodup_cons] at h
    have hx : ∀ o ∈ objects, o.1 ≠ x.1 := fun o ho heq => h.1 (heq ▸ List.mem_map_of_mem ho)
    rw [mergeObject_cons]
    split
    next heq =>
      rw [List.mem_cons, List.mem_cons]
      constructor
      · rintro (rfl | ho)
        · exact .inl rfl
        · exact .inr ⟨.inr ho, heq ▸ hx o ho⟩
      · rintro (rfl | ⟨rfl | ho, hne⟩)
        · exact .inl rfl
        · exact absurd heq hne
        · exact .inr ho
    next hne =>
      rw [List.mem_cons, List.mem_cons, ih h.2]
      constructor
      · rintro (rfl | rfl | ho)
        · exact .inr ⟨.inl rfl, hne⟩
        · exact .inl rfl
        · exact .inr ⟨.inr ho.1, ho.2⟩
      · rintro (rfl | ⟨rfl | ho, hne'⟩)
        · exact .inr (.inl rfl)
        · exact .inl rfl
        · exact .inr (.inr ⟨ho, hne'⟩)

theorem nodup_foldl_mergeObject (identification : List (UInt8 × Bytes))
    (h : (objects.map (·.1)).Nodup) :
    ((identification.foldl mergeObject objects).map (·.1)).Nodup := by
  induction identification generalizing objects with
  | nil => exact h
  | cons entry identification ih => exact ih (nodup_mergeObject h)

/-- The entries of a map put into a list: the map's own, and those of the list under other ids. -/
theorem mem_foldl_mergeObject {identification : List (UInt8 × Bytes)}
    (hmap : (identification.map (·.1)).Nodup) (h : (objects.map (·.1)).Nodup) :
    o ∈ identification.foldl mergeObject objects ↔
      o ∈ identification ∨ o ∈ objects ∧ o.1 ∉ identification.map (·.1) := by
  induction identification generalizing objects with
  | nil =>
    simp only [List.foldl_nil, List.not_mem_nil, List.map_nil, not_false_eq_true, and_true,
      false_or]
  | cons entry identification ih =>
    rw [List.map_cons, List.nodup_cons] at hmap
    rw [List.foldl_cons, ih hmap.2 (nodup_mergeObject h), mem_mergeObject h, List.map_cons,
      List.mem_cons, List.mem_cons, not_or]
    constructor
    · rintro (ho | ⟨rfl | ⟨ho, hne⟩, hout⟩)
      · exact .inl (.inr ho)
      · exact .inl (.inl rfl)
      · exact .inr ⟨ho, hne, hout⟩
    · rintro ((rfl | ho) | ⟨ho, hne, hout⟩)
      · exact .inr ⟨.inl rfl, hmap.1⟩
      · exact .inl ho
      · exact .inr ⟨.inr ⟨ho, hne⟩, hout⟩

end Merge

/-- The basic objects, where the model has none of its own. -/
def basicObjects : List (UInt8 × Bytes) := [(0x00, nullValue), (0x01, nullValue), (0x02, nullValue)]

/-- The list has one object for each id. -/
theorem nodup_objectList (identification : List (UInt8 × Bytes)) :
    ((objectList identification).map (·.1)).Nodup := by
  have hmerged : ((identification.foldl mergeObject basicObjects).map (·.1)).Nodup :=
    nodup_foldl_mergeObject identification (by decide)
  exact ((List.mergeSort_perm _ _).map _).nodup_iff.mpr hmerged

theorem mem_objectList {identification : List (UInt8 × Bytes)}
    (hmap : (identification.map (·.1)).Nodup) {o : UInt8 × Bytes} :
    o ∈ objectList identification ↔
      o ∈ identification ∨ o ∈ basicObjects ∧ o.1 ∉ identification.map (·.1) := by
  rw [objectList, List.mem_mergeSort]
  exact mem_foldl_mergeObject hmap (by decide)

/-- The list is in ascending order. -/
theorem objectList_ascending (identification : List (UInt8 × Bytes)) :
    (objectList identification).Pairwise fun a b => a.1 < b.1 := by
  have hsorted : (objectList identification).Pairwise fun a b => a.1 ≤ b.1 := by
    refine (List.pairwise_mergeSort ?_ ?_ _).imp fun h => of_decide_eq_true h
    · intro a b c hab hbc
      exact decide_eq_true (UInt8.le_trans (of_decide_eq_true hab) (of_decide_eq_true hbc))
    · intro a b
      rw [Bool.or_eq_true, decide_eq_true_iff, decide_eq_true_iff]
      exact UInt8.le_total a.1 b.1
  have hdistinct : (objectList identification).Pairwise fun a b => a.1 ≠ b.1 :=
    List.pairwise_map.mp (nodup_objectList identification)
  refine (hsorted.and hdistinct).imp ?_
  rintro a b ⟨hle, hne⟩
  exact UInt8.lt_of_le_of_ne hle hne

/-! ## The bytes of objects -/

/-- The room an object takes in a response. -/
def objectSize (o : UInt8 × Bytes) : Nat := 2 + o.2.length

/-- An object as it stands in a response: id, length, value. -/
def encodeObject (o : UInt8 × Bytes) : Bytes := o.1 :: UInt8.ofNat o.2.length :: o.2

@[simp] theorem length_encodeObject (o : UInt8 × Bytes) : (encodeObject o).length = objectSize o := by
  rw [encodeObject, objectSize, List.length_cons, List.length_cons]
  omega

@[simp] theorem length_encodeObjects (objects : List (UInt8 × Bytes)) :
    (objects.flatMap encodeObject).length = total objectSize objects := by
  induction objects with
  | nil => rfl
  | cons o objects ih => rw [List.flatMap_cons, List.length_append, length_encodeObject, ih, total_cons]

theorem length_le_total (objects : List (UInt8 × Bytes)) :
    2 * objects.length ≤ total objectSize objects := by
  induction objects with
  | nil => exact Nat.le_refl _
  | cons o objects ih =>
    rw [total_cons, List.length_cons, objectSize]
    omega

/-- The objects of a response are counted in a byte. -/
theorem toNat_count {chosen : List (UInt8 × Bytes)} (h : total objectSize chosen ≤ 243) :
    (UInt8.ofNat chosen.length).toNat = chosen.length := by
  have hle := length_le_total chosen
  exact UInt8.toNat_ofNat_of_lt' (show chosen.length < 256 by omega)

theorem find?_objects {objects : List (UInt8 × Bytes)} (hnodup : (objects.map (·.1)).Nodup)
    {o : UInt8 × Bytes} (ho : o ∈ objects) : objects.find? (·.1 == o.1) = some o := by
  induction objects with
  | nil => cases ho
  | cons x objects ih =>
    rw [List.map_cons, List.nodup_cons] at hnodup
    rcases List.mem_cons.mp ho with rfl | hmem
    · exact List.find?_cons_of_pos (beq_self_eq_true o.1)
    · have hne : (x.1 == o.1) = false :=
        beq_eq_false_iff_ne.mpr fun heq => hnodup.1 (heq ▸ List.mem_map_of_mem hmem)
      simp only [List.find?_cons, hne]
      exact ih hnodup.2 hmem

/-- The bytes of objects of the list, looked up by their ids. -/
theorem objectBytes_chosen {objects : List (UInt8 × Bytes)} (hnodup : (objects.map (·.1)).Nodup)
    {chosen : List (UInt8 × Bytes)} (hchosen : ∀ o ∈ chosen, o ∈ objects) :
    objectBytes objects (chosen.map (·.1)) = chosen.flatMap encodeObject := by
  rw [objectBytes, List.flatMap_map]
  induction chosen with
  | nil => rfl
  | cons o chosen ih =>
    rw [List.flatMap_cons, List.flatMap_cons, find?_objects hnodup (hchosen o List.mem_cons_self),
      ih fun o ho => hchosen o (List.mem_cons_of_mem _ ho)]
    rfl

/-! ## The objects of a response -/

/-- Whatever the read code, the objects chosen are objects of the list, within what is left of 253
bytes. -/
theorem chooseObjects_within {readDeviceIdCode objectId lastId lastId' : UInt8} {length : Nat}
    {objects : List (UInt8 × Bytes)} {ids ids' : List UInt8} (hlength : length ≤ 253)
    (h : chooseObjects readDeviceIdCode objectId objects length lastId ids = some (lastId', ids')) :
    ∃ chosen : List (UInt8 × Bytes), ids' = ids ++ chosen.map (·.1) ∧ (∀ o ∈ chosen, o ∈ objects) ∧
      length + total objectSize chosen ≤ 253 := by
  induction objects generalizing length lastId ids with
  | nil =>
    cases h
    exact ⟨[], (List.append_nil _).symm, List.forall_mem_nil _, hlength⟩
  | cons o objects ih =>
    obtain ⟨id, value⟩ := o
    have later : ∀ {length lastId ids}, length ≤ 253 →
        chooseObjects readDeviceIdCode objectId objects length lastId ids = some (lastId', ids') →
        ∃ chosen : List (UInt8 × Bytes), ids' = ids ++ chosen.map (·.1) ∧
          (∀ o ∈ chosen, o ∈ (id, value) :: objects) ∧ length + total objectSize chosen ≤ 253 := by
      intro length lastId ids hlength h
      obtain ⟨chosen, hids, hmem, htotal⟩ := ih hlength h
      exact ⟨chosen, hids, fun o ho => List.mem_cons_of_mem _ (hmem o ho), htotal⟩
    rw [chooseObjects] at h
    split at h
    · exact later hlength h
    · split at h
      · cases h
      · split at h
        · exact later hlength h
        next hfits =>
          have hsize : objectSize (id, value) = 2 + value.length := rfl
          split at h
          · cases h
            refine ⟨[(id, value)], rfl, ?_, ?_⟩
            · intro o ho
              exact List.mem_singleton.mp ho ▸ List.mem_cons_self
            · rw [total_cons, total_nil, hsize]
              omega
          · obtain ⟨chosen, hids, hmem, htotal⟩ := later (by omega) h
            refine ⟨(id, value) :: chosen, ?_, ?_, ?_⟩
            · rw [hids, List.append_assoc]
              rfl
            · exact List.forall_mem_cons.mpr ⟨List.mem_cons_self, hmem⟩
            · rw [total_cons, hsize]
              omega

/-- A response: the header, and the objects it counts, within 243 bytes. -/
theorem identificationData_ok {readDeviceIdCode objectId : UInt8}
    {identification : List (UInt8 × Bytes)} {data : Bytes}
    (h : identificationData readDeviceIdCode objectId identification = .ok data) :
    ∃ (conformity more lastId : UInt8) (chosen : List (UInt8 × Bytes)),
      data = [meiReadDeviceId, readDeviceIdCode, conformity, more, lastId,
        UInt8.ofNat chosen.length] ++ chosen.flatMap encodeObject ∧
      total objectSize chosen ≤ 243 := by
  unfold identificationData at h
  dsimp only at h
  split at h
  · cases h
  · split at h
    next => cases h
    next lastId ids hchoose =>
      obtain ⟨chosen, rfl, hmem, htotal⟩ := chooseObjects_within (by decide) hchoose
      rw [List.nil_append, List.length_map,
        objectBytes_chosen (nodup_objectList identification) hmem] at h
      cases h
      exact ⟨_, _, _, chosen, rfl, by omega⟩

/-! ## Pages -/

/-- A response can give an object as the next one; the id 0 stands for the end. -/
def named (o : UInt8 × Bytes) : Bool := o.1 != 0

/-- The next object id of a response. -/
def nextObjectId : Option (List (UInt8 × Bytes)) → UInt8
  | some (o :: _) => o.1
  | _ => 0x00

/-- The response to a request for the objects from the first of `objects` on. -/
def pageData (conformity : UInt8) (objects : List (UInt8 × Bytes)) : Bytes :=
  let page := pick objectSize 243 objects
  let next := nextObjectId (resume objectSize named 243 objects)
  [meiReadDeviceId, 0x03, conformity, if next = 0 then 0x00 else 0xff, next,
    UInt8.ofNat page.length] ++ page.flatMap encodeObject

section Pages

variable {readDeviceIdCode objectId : UInt8}

/-- Objects before the one that is requested are passed over. -/
theorem chooseObjects_skip {before : List (UInt8 × Bytes)} (h : ∀ o ∈ before, o.1 < objectId)
    (objects : List (UInt8 × Bytes)) (length : Nat) (lastId : UInt8) (ids : List UInt8) :
    chooseObjects readDeviceIdCode objectId (before ++ objects) length lastId ids =
      chooseObjects readDeviceIdCode objectId objects length lastId ids := by
  induction before with
  | nil => rfl
  | cons o before ih =>
    obtain ⟨ho, h⟩ := List.forall_mem_cons.mp h
    rw [List.cons_append, chooseObjects, if_pos ho, ih h]

/-- From there on the choice is greedy, and the next id that of the first object left out. -/
theorem chooseObjects_pick (hcode : readDeviceIdCode ≠ 0x04) {objects : List (UInt8 × Bytes)}
    (hfrom : ∀ o ∈ objects, ¬ o.1 < objectId) (hvalues : ∀ o ∈ objects, o.2.length ≤ 245)
    {length : Nat} (hlength : length ≤ 253) (lastId : UInt8) (ids : List UInt8) :
    chooseObjects readDeviceIdCode objectId objects length lastId ids =
      some (if lastId = 0 then nextObjectId (resume objectSize named (253 - length) objects)
          else lastId,
        ids ++ (pick objectSize (253 - length) objects).map (·.1)) := by
  induction objects generalizing length lastId ids with
  | nil =>
    rw [chooseObjects, pick, resume, List.map_nil, List.append_nil]
    by_cases hlast : lastId = 0
    · rw [if_pos hlast, hlast]
      rfl
    · rw [if_neg hlast]
  | cons o objects ih =>
    obtain ⟨hid, hfrom⟩ := List.forall_mem_cons.mp hfrom
    obtain ⟨hvalue, hvalues⟩ := List.forall_mem_cons.mp hvalues
    rw [chooseObjects, if_neg hid, if_neg (Nat.not_lt.mpr hvalue), pick, resume]
    by_cases hover : length + 2 + o.2.length > 253
    · have hsize : ¬ objectSize o ≤ 253 - length := by
        rw [objectSize]
        omega
      rw [if_pos hover, if_neg hsize, if_neg hsize, ih hfrom hvalues hlength]
      by_cases hlast : lastId = 0
      · rw [if_pos hlast, if_pos hlast]
        by_cases hzero : o.1 = 0
        · have hnamed : ¬ named o = true := fun h => bne_iff_ne.mp h hzero
          rw [if_pos hzero, if_neg hnamed]
        · have hnamed : named o = true := bne_iff_ne.mpr hzero
          rw [if_neg hzero, if_pos hnamed]
          rfl
      · rw [if_neg hlast, if_neg hlast, if_neg hlast]
    · have hsize : objectSize o ≤ 253 - length := by
        rw [objectSize]
        omega
      have hroom : 253 - (length + 2 + o.2.length) = 253 - length - objectSize o := by
        rw [objectSize]
        omega
      rw [if_neg hover, if_neg hcode, if_pos hsize, if_pos hsize, ih hfrom hvalues (by omega),
        hroom, List.map_cons, List.append_assoc]
      rfl

/-- **A response to the read code 0x03 is a page of the object list**, from the requested object
on. -/
theorem identificationData_page {identification : List (UInt8 × Bytes)}
    (hvalues : ∀ o ∈ objectList identification, o.2.length ≤ 245) {o : UInt8 × Bytes}
    {rest : List (UInt8 × Bytes)} (hsuffix : o :: rest <:+ objectList identification) :
    identificationData 0x03 o.1 identification =
      .ok (pageData (conformityLevel (objectList identification)) (o :: rest)) := by
  have hnodup := nodup_objectList identification
  have hascending := objectList_ascending identification
  have hany : (objectList identification).any (·.1 == o.1) = true :=
    List.any_eq_true.mpr ⟨o, hsuffix.subset List.mem_cons_self, beq_self_eq_true o.1⟩
  have hmem : ∀ x ∈ pick objectSize 243 (o :: rest), x ∈ objectList identification :=
    fun x hx => hsuffix.subset ((pick_sublist objectSize 243 _).subset hx)
  have hchoose : chooseObjects 0x03 o.1 (objectList identification) 10 0 [] =
      some (nextObjectId (resume objectSize named 243 (o :: rest)),
        (pick objectSize 243 (o :: rest)).map (·.1)) := by
    obtain ⟨before, hlist⟩ := hsuffix
    rw [← hlist] at hascending hvalues ⊢
    obtain ⟨-, hrest, hcross⟩ := List.pairwise_append.mp hascending
    rw [chooseObjects_skip fun x hx => hcross x hx o List.mem_cons_self]
    refine chooseObjects_pick (by decide) ?_ ?_ (by decide) 0 []
    · refine List.forall_mem_cons.mpr ⟨UInt8.lt_irrefl o.1, ?_⟩
      exact fun x hx => UInt8.lt_asymm ((List.pairwise_cons.mp hrest).1 x hx)
    · exact fun x hx => hvalues x (List.mem_append_right before hx)
  rw [identificationData, hany]
  simp only [Bool.not_true, Bool.false_and, Bool.false_eq_true, ↓reduceIte, hchoose,
    List.length_map, objectBytes_chosen hnodup hmem]
  rfl

end Pages

/-! ## Walking the objects -/

section Walks

variable (front back : Bytes) {o : UInt8 × Bytes} {objects : List (UInt8 × Bytes)}

/-- The first object behind `front`, made a part of what is before the others. -/
theorem bytes_cons (o : UInt8 × Bytes) (objects : List (UInt8 × Bytes)) :
    front ++ ((o :: objects).flatMap encodeObject ++ back) =
      (front ++ encodeObject o) ++ (objects.flatMap encodeObject ++ back) := by
  rw [List.flatMap_cons, List.append_assoc, List.append_assoc]

theorem length_front (o : UInt8 × Bytes) :
    (front ++ encodeObject o).length = front.length + 2 + o.2.length := by
  rw [List.length_append, length_encodeObject, objectSize, Nat.add_assoc]

theorem length_bytes_cons (o : UInt8 × Bytes) (objects : List (UInt8 × Bytes)) :
    (front ++ ((o :: objects).flatMap encodeObject ++ back)).length =
      front.length + 2 + o.2.length + (objects.flatMap encodeObject ++ back).length := by
  rw [bytes_cons, List.length_append, length_front]

/-- The byte at `i` behind `front` is that of the first object. -/
theorem getD_bytes_cons (o : UInt8 × Bytes) (objects : List (UInt8 × Bytes)) (i : Nat) :
    (front ++ ((o :: objects).flatMap encodeObject ++ back)).getD (front.length + i) 0 =
      (encodeObject o ++ (objects.flatMap encodeObject ++ back)).getD i 0 := by
  rw [List.flatMap_cons, List.append_assoc, getD_length_add]

/-- The length byte of an object of a response. -/
theorem toNat_lengthByte (h : total objectSize (o :: objects) ≤ 243) :
    (UInt8.ofNat o.2.length).toNat = o.2.length := by
  rw [total_cons, objectSize] at h
  exact UInt8.toNat_ofNat_of_lt' (show o.2.length < 256 by omega)

theorem total_tail_le (h : total objectSize (o :: objects) ≤ 243) :
    total objectSize objects ≤ 243 := by
  rw [total_cons] at h
  omega

/-- A walk goes on behind the first object. -/
theorem walk_cons (h : total objectSize (o :: objects) ≤ 243) :
    front.length + 2 + ((front ++ ((o :: objects).flatMap encodeObject ++ back)).getD
      (front.length + 1) 0).toNat = (front ++ encodeObject o).length := by
  rw [getD_bytes_cons, length_front]
  exact congrArg _ (toNat_lengthByte h)

/-- The RTU predictor comes to the end of the objects, and adds the CRC. -/
theorem predictObjects_objects (h : total objectSize objects ≤ 243) :
    predictObjects (front ++ (objects.flatMap encodeObject ++ back)) objects.length front.length =
      .length (front.length + total objectSize objects + 2) := by
  induction objects generalizing front with
  | nil => rfl
  | cons o objects ih =>
    have hlong : ¬ (front ++ ((o :: objects).flatMap encodeObject ++ back)).length <
        front.length + 2 := by
      rw [length_bytes_cons]
      omega
    rw [List.length_cons, predictObjects, if_neg hlong, walk_cons front back h, bytes_cons,
      ih (front ++ encodeObject o) (total_tail_le h), length_front, total_cons, objectSize]
    congr 1
    omega

/-- So does the master's check, without a CRC. -/
theorem walkObjects_objects (h : total objectSize objects ≤ 243) :
    Master.walkObjects (front ++ (objects.flatMap encodeObject ++ back)) objects.length
      front.length = .needLength (front.length + total objectSize objects) := by
  induction objects generalizing front with
  | nil => rfl
  | cons o objects ih =>
    have hlong : ¬ front.length + 2 >
        (front ++ ((o :: objects).flatMap encodeObject ++ back)).length := by
      rw [length_bytes_cons]
      omega
    rw [List.length_cons, Master.walkObjects, if_neg hlong, walk_cons front back h, bytes_cons,
      ih (front ++ encodeObject o) (total_tail_le h), length_front, total_cons, objectSize]
    congr 1
    omega

/-- The master reads the objects that the slave wrote. -/
theorem parseObjects_objects (h : total objectSize objects ≤ 243) :
    Master.parseObjects (front ++ (objects.flatMap encodeObject ++ back)) objects.length
      front.length = .ok objects := by
  induction objects generalizing front with
  | nil => rfl
  | cons o objects ih =>
    have hlength := length_bytes_cons front back o objects
    have hid : index (front ++ ((o :: objects).flatMap encodeObject ++ back)) front.length =
        .ok o.1 := by
      rw [index_of_lt (by omega) 0]
      exact congrArg Except.ok (getD_bytes_cons front back o objects 0)
    have hbyte : index (front ++ ((o :: objects).flatMap encodeObject ++ back))
        (front.length + 1) = .ok (UInt8.ofNat o.2.length) := by
      rw [index_of_lt (by omega) 0, getD_bytes_cons]
      rfl
    have hvalue : ((front ++ ((o :: objects).flatMap encodeObject ++ back)).drop
        (front.length + 2)).take o.2.length = o.2 := by
      rw [List.flatMap_cons, List.append_assoc, List.drop_length_add_append]
      show List.take o.2.length (o.2 ++ _) = o.2
      exact List.take_left
    have hlater : Master.parseObjects (front ++ ((o :: objects).flatMap encodeObject ++ back))
        objects.length (front.length + 2 + o.2.length) = .ok objects := by
      rw [bytes_cons, ← length_front]
      exact ih (front ++ encodeObject o) (total_tail_le h)
    rw [List.length_cons, Master.parseObjects, hid, hbyte]
    show (if _ < front.length + 2 + (UInt8.ofNat o.2.length).toNat then _ else _) = _
    rw [toNat_lengthByte h, if_neg (by omega), hlater, hvalue]
    rfl

end Walks

end RsModbus.Slave
