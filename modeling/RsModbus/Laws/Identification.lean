import RsModbus.Laws.ReplyFrames

/-!
# Reading a whole device identification

`identifyAll_catalogue_iff`: a caller who reads the device identification of a slave with the read
code 0x03, request after request as long as more follows, comes to an end with every object once, in
ascending order and with its value, if and only if the pages of the object list follow one another
(`Library.Paged`): the objects that fit into a response come first, and no later object fits into the
room that they leave.

The loop of requests is the reader of `Library.Paging` (`identifyAll_eq_pages`), on any protocol.
-/

namespace RsModbus

open Library Master Slave

variable {σ : Type}

/-! ## Identifications -/

/-- The identification of a model: a map from object ids outside of the reserved range to values of at
most 245 bytes, the slave's own limit. -/
structure Identification where
  entries : List (UInt8 × Bytes)
  nodup : (entries.map (·.1)).Nodup
  ids : ∀ o ∈ entries, o.1 ≤ 0x06 ∨ 0x80 ≤ o.1
  values : ∀ o ∈ entries, o.2.length ≤ 245

/-- The unit is that of a model that leaves FC 43 to its handler and reports the identification, its
entries in any order at each call. -/
structure Identifies (models : List (ModbusSlaveModel σ)) (unit : UInt8)
    (model : ModbusSlaveModel σ) (identification : Identification) : Prop where
  notBroadcast : unit ≠ 0
  addressed : models.find? (fun m => m.unit = unit) = some model
  lets : ∀ (adu : ApplicationDataUnit) (s : σ), adu.fc = 0x2b →
    (model.intercepts adu s).1 = .ok none
  reports : ∃ body, model.implemented .readDeviceIdentification = some body ∧
    ∀ s, ∃ entries, (body s).1 = .ok entries ∧ entries.Perm identification.entries

/-- All objects in ascending order of their ids: the entries, and `null` for each basic object that
has none. -/
structure Catalogue (identification : Identification) (objects : List (UInt8 × Bytes)) : Prop where
  ascending : objects.Pairwise fun a b => a.1 < b.1
  complete : ∀ o, o ∈ objects ↔ o ∈ identification.entries ∨
    (o.1 ≤ 0x02 ∧ o.2 = nullValue) ∧ o.1 ∉ identification.entries.map (·.1)

theorem mem_basicObjects {o : UInt8 × Bytes} :
    o ∈ basicObjects ↔ o.1 ≤ 0x02 ∧ o.2 = nullValue := by
  have hid : ∀ id : UInt8, id ≤ 0x02 ↔ id = 0x00 ∨ id = 0x01 ∨ id = 0x02 :=
    forall_byte (by decide +kernel)
  obtain ⟨id, value⟩ := o
  simp only [basicObjects, List.mem_cons, Prod.mk.injEq, List.not_mem_nil, or_false, hid,
    or_and_right]

section Catalogues

variable {identification : Identification} {objects objects' : List (UInt8 × Bytes)}

theorem Catalogue.nodup (h : Catalogue identification objects) : objects.Nodup :=
  h.ascending.imp fun hlt heq => UInt8.ne_of_lt hlt (congrArg Prod.fst heq)

/-- There is one catalogue. -/
theorem Catalogue.unique (h : Catalogue identification objects)
    (h' : Catalogue identification objects') : objects = objects' := by
  have hperm : objects.Perm objects' :=
    (List.perm_ext_iff_of_nodup h.nodup h'.nodup).mpr fun o =>
      (h.complete o).trans (h'.complete o).symm
  refine hperm.eq_of_pairwise ?_ h.ascending h'.ascending
  intro a b _ _ hab hba
  exact absurd hba (UInt8.lt_asymm hab)

/-- It is the list that the handler makes of the entries, in whatever order they are reported. -/
theorem catalogue_objectList {entries : List (UInt8 × Bytes)}
    (h : entries.Perm identification.entries) :
    Catalogue identification (objectList entries) := by
  have hkeys : (entries.map (·.1)).Perm (identification.entries.map (·.1)) := h.map _
  refine ⟨objectList_ascending entries, ?_⟩
  intro o
  rw [mem_objectList (hkeys.nodup_iff.mpr identification.nodup), h.mem_iff, hkeys.mem_iff,
    mem_basicObjects]

/-- The ids and the values of a catalogue keep the limits of the entries. -/
theorem Catalogue.limits (h : Catalogue identification objects) {o : UInt8 × Bytes}
    (ho : o ∈ objects) : (o.1 ≤ 0x06 ∨ 0x80 ≤ o.1) ∧ o.2.length ≤ 245 := by
  rcases (h.complete o).mp ho with ho | ⟨⟨hid, hvalue⟩, -⟩
  · exact ⟨identification.ids o ho, identification.values o ho⟩
  · rw [hvalue]
    exact ⟨.inl (UInt8.le_trans hid (by decide)), by decide⟩

/-- A catalogue starts with the object 0x00. -/
theorem Catalogue.head (h : Catalogue identification objects) :
    ∃ o rest, objects = o :: rest ∧ o.1 = 0x00 := by
  have hzero : ∃ value, ((0x00 : UInt8), value) ∈ objects := by
    by_cases hmem : (0x00 : UInt8) ∈ identification.entries.map (·.1)
    · obtain ⟨⟨id, value⟩, ho, rfl⟩ := List.mem_map.mp hmem
      exact ⟨value, (h.complete _).mpr (.inl ho)⟩
    · exact ⟨nullValue, (h.complete _).mpr (.inr ⟨⟨by decide, rfl⟩, hmem⟩)⟩
  obtain ⟨value, hmem⟩ := hzero
  cases objects with
  | nil => cases hmem
  | cons o rest =>
    refine ⟨o, rest, rfl, ?_⟩
    rcases List.mem_cons.mp hmem with heq | hlater
    · rw [← heq]
    · have hlt := (List.pairwise_cons.mp h.ascending).1 _ hlater
      exact absurd hlt UInt8.not_lt_zero

theorem Catalogue.named_tail (h : Catalogue identification objects) :
    ∀ o ∈ objects.tail, named o = true := by
  obtain ⟨x, rest, rfl, -⟩ := h.head
  intro o ho
  have hlt : x.1 < o.1 := (List.pairwise_cons.mp h.ascending).1 o ho
  refine bne_iff_ne.mpr fun hzero => ?_
  rw [hzero] at hlt
  exact absurd hlt UInt8.not_lt_zero

end Catalogues

/-! ## One request -/

section Requests

variable (l : Link σ) {unit : UInt8} {model : ModbusSlaveModel σ} {identification : Identification}
  (hidentifies : Identifies l.models unit model identification)

/-- The bytes of a page, as the caller reads them. -/
theorem pageData_parts (conformity : UInt8) (objects : List (UInt8 × Bytes)) :
    ∃ more : UInt8, pageData conformity objects =
      [meiReadDeviceId, 0x03, conformity, more,
        nextObjectId (resume objectSize named 243 objects),
        UInt8.ofNat (pick objectSize 243 objects).length] ++
          ((pick objectSize 243 objects).flatMap encodeObject ++ []) ∧
      (more == 0xff) = (nextObjectId (resume objectSize named 243 objects) != 0) := by
  refine ⟨if nextObjectId (resume objectSize named 243 objects) = 0 then 0x00 else 0xff, ?_, ?_⟩
  · rw [List.append_nil]
    rfl
  · by_cases hnext : nextObjectId (resume objectSize named 243 objects) = 0
    · rw [if_pos hnext, hnext]
      rfl
    · rw [if_neg hnext, bne_iff_ne.mpr hnext]
      rfl

include hidentifies in
/-- The handler's reply to a request for the objects from `o` on. -/
theorem dispatch_page {objects : List (UInt8 × Bytes)} (hcatalogue : Catalogue identification objects)
    {o : UInt8 × Bytes} {rest : List (UInt8 × Bytes)} (hsuffix : o :: rest <:+ objects)
    {adu : ApplicationDataUnit} (hfc : adu.fc = 0x2b)
    (hdata : adu.data = [meiReadDeviceId, 0x03, o.1]) (w : World σ) :
    ∃ conformity w', dispatch l.context l.customFcs model adu (sendReply l.context) w =
        reply l.context adu (sendReply l.context) (pageData conformity (o :: rest)) w' ∧
      w'.replies = w.replies := by
  obtain ⟨body, hbody, hreports⟩ := hidentifies.reports
  obtain ⟨entries, hentries, hperm⟩ := hreports w.state
  have hlist : objectList entries = objects := (catalogue_objectList hperm).unique hcatalogue
  have hcall := call_of_implemented model l.context.checks hbody w
  rw [hentries] at hcall
  have hselect : selectObject 0x03 o.1 = .ok o.1 := by
    have hid := (hcatalogue.limits (hsuffix.subset List.mem_cons_self)).1
    have hnot : ¬ (o.1 > 0x06 ∧ o.1 < 0x80) := by
      rintro ⟨hlow, hhigh⟩
      rcases hid with hid | hid
      · exact UInt8.not_lt.mpr hid hlow
      · exact UInt8.not_lt.mpr hid hhigh
    exact congrArg Except.ok (if_neg hnot)
  have hpage : identificationData 0x03 o.1 entries =
      .ok (pageData (conformityLevel (objectList entries)) (o :: rest)) := by
    refine identificationData_page ?_ (hlist ▸ hsuffix)
    rw [hlist]
    exact fun x hx => (hcatalogue.limits hx).2
  have hdispatch : dispatch l.context l.customFcs model adu (sendReply l.context) =
      handleFc43_14 l.context model adu (sendReply l.context) := by
    unfold dispatch
    rw [hfc]
    rfl
  refine ⟨conformityLevel (objectList entries),
    ⟨(body w.state).2, w.calls ++ [(model.unit, .readDeviceIdentification)], w.replies⟩, ?_, rfl⟩
  rw [hdispatch, handleFc43_14, hdata]
  simp only [ne_eq, not_true_eq_false, ↓reduceIte, hselect]
  rw [SlaveM.bind_of_ok hcall]
  simp only [answer, hpage]

/-- The check of the method passes a page. -/
theorem page_passes {unit objectId : UInt8} {adu : ApplicationDataUnit} {conformity : UInt8}
    {objects : List (UInt8 × Bytes)} (hdata : adu.data = pageData conformity objects) :
    runPreChecks adu (readDeviceIdentification unit 0x03 objectId).extra = none := by
  obtain ⟨more, hparts, -⟩ := pageData_parts conformity objects
  have htotal := total_pick_le objectSize 243 objects
  have hcount := toNat_count htotal
  have hlen : adu.data.length = 6 + total objectSize (pick objectSize 243 objects) := by
    rw [hdata, hparts, List.length_append, List.append_nil, length_encodeObjects]
    rfl
  have hwalk : walkObjects adu.data (adu.data.getD 5 0).toNat 6 = .needLength adu.data.length := by
    rw [hlen, hdata, hparts]
    show walkObjects _ (UInt8.ofNat (pick objectSize 243 objects).length).toNat 6 = _
    rw [hcount]
    exact walkObjects_objects _ [] htotal
  have hmei : adu.data.getD 0 0 = meiReadDeviceId := by rw [hdata, hparts]; rfl
  have hcode : adu.data.getD 1 0 = 0x03 := by rw [hdata, hparts]; rfl
  have hlong : 6 ≤ adu.data.length := by omega
  simp only [readDeviceIdentification, runPreChecks, hlong, hmei, hcode, and_self, ↓reduceIte, hwalk,
    Nat.lt_irrefl, ne_eq, not_true_eq_false]

/-- The method reads the page. -/
theorem page_parsed (unit objectId conformity : UInt8) (objects : List (UInt8 × Bytes)) :
    (readDeviceIdentification unit 0x03 objectId).parse (pageData conformity objects) =
      .ok (.ok ⟨0x03, conformity, nextObjectId (resume objectSize named 243 objects) != 0,
        nextObjectId (resume objectSize named 243 objects), pick objectSize 243 objects⟩) := by
  obtain ⟨more, hparts, hmore⟩ := pageData_parts conformity objects
  have htotal := total_pick_le objectSize 243 objects
  have hcount := toNat_count htotal
  have hobjects : parseObjects (pageData conformity objects)
      (UInt8.ofNat (pick objectSize 243 objects).length).toNat 6 =
        .ok (pick objectSize 243 objects) := by
    rw [hcount, hparts]
    exact parseObjects_objects [meiReadDeviceId, 0x03, conformity, more,
      nextObjectId (resume objectSize named 243 objects),
      UInt8.ofNat (pick objectSize 243 objects).length] [] htotal
  have hindex : ∀ {i : Nat} {b : UInt8}, (pageData conformity objects)[i]? = some b →
      index (pageData conformity objects) i = .ok b := index_of_getElem?
  have hnum : index (pageData conformity objects) 5 = .ok _ := hindex (by rw [hparts]; rfl)
  have hcode : index (pageData conformity objects) 1 = .ok 0x03 := hindex (by rw [hparts]; rfl)
  have hconformity : index (pageData conformity objects) 2 = .ok conformity :=
    hindex (by rw [hparts]; rfl)
  have hfollows : index (pageData conformity objects) 3 = .ok more := hindex (by rw [hparts]; rfl)
  have hnext : index (pageData conformity objects) 4 = .ok _ := hindex (by rw [hparts]; rfl)
  simp only [readDeviceIdentification, hnum, hcode, hconformity, hfollows, hnext, ← hmore]
  show (parseObjects (pageData conformity objects)
    (UInt8.ofNat (pick objectSize 243 objects).length).toNat 6 >>= _) = _
  rw [hobjects]
  rfl

include hidentifies in
/-- **One request reads one page**, over any of the protocols. -/
theorem request_page {objects : List (UInt8 × Bytes)} (hcatalogue : Catalogue identification objects)
    {o : UInt8 × Bytes} {rest : List (UInt8 × Bytes)} (hsuffix : o :: rest <:+ objects)
    (w : World σ) :
    ∃ response w', l.request unit (readDeviceIdentification unit 0x03 o.1) w =
        (.ok (.ok (some response)), w') ∧
      response.data.objects = pick objectSize 243 (o :: rest) ∧
      response.data.nextObjectId = nextObjectId (resume objectSize named 243 (o :: rest)) ∧
      response.data.moreFollows =
        (nextObjectId (resume objectSize named 243 (o :: rest)) != 0) := by
  let m := readDeviceIdentification unit 0x03 o.1
  let tid := l.tidFor unit
  have hunit := hidentifies.notBroadcast
  have htid := l.tidFor_isSome hunit
  have hsent : m.sent tid = ⟨tid, unit, 0x2b, [meiReadDeviceId, 0x03, o.1]⟩ := Link.sent_eq tid rfl
  have hrequest : Fits l.protocol false (m.sent tid) := by
    have hfixed : Sendable false ⟨none, unit, 0x2b, [meiReadDeviceId, 0x03, o.1]⟩ :=
      sendable_fixed unit _ (by decide) rfl (by decide : 3 ≤ 252)
    rw [hsent]
    exact ⟨⟨hfixed.length, hfixed.predicted⟩, htid⟩
  let w₁ := afterIntercept model (m.sent tid) w
  have hintercept : model.call l.checks (.intercept (m.sent tid).fc (m.sent tid).data) w =
      (.ok (.ok none), w₁) := by
    rw [call_intercept, hidentifies.lets _ _ (by rw [hsent])]
  obtain ⟨conformity, w₂, hdispatch, hreplies⟩ := dispatch_page l hidentifies hcatalogue hsuffix
    (by rw [hsent] : (m.sent tid).fc = 0x2b) (by rw [hsent]) w₁
  have hserved := l.serve_eq hunit hidentifies.addressed
    (by rw [hsent] : (m.sent tid).unit = unit) hrequest hintercept hdispatch
  rw [hreplies] at hserved
  have hanswer : Fits l.protocol true
      { m.sent tid with data := pageData conformity (o :: rest) } := by
    obtain ⟨more, hparts, -⟩ := pageData_parts conformity (o :: rest)
    have htotal := total_pick_le objectSize 243 (o :: rest)
    rw [List.append_nil] at hparts
    refine ⟨⟨?_, predicted_identification (by rw [hsent]) htotal hparts⟩, by rw [hsent]; exact htid⟩
    show (pageData conformity (o :: rest)).length ≤ 252
    rw [hparts, List.length_append, length_encodeObjects]
    simp only [List.length_cons, List.length_nil]
    omega
  have hchecks : runPreChecks { m.sent tid with data := pageData conformity (o :: rest) }
      (m.finalChecks tid) = none :=
    Link.runPreChecks_finalChecks (by rw [hsent]) (by rw [hsent]; rfl) (by rw [hsent]; rfl)
      (page_passes rfl)
  have hdone := l.request_of_served hunit _ hserved hanswer rfl hchecks
    (page_parsed unit o.1 conformity (o :: rest))
  exact ⟨_, _, hdone, rfl, rfl, rfl⟩

end Requests

/-! ## All requests -/

/-- **The requests are the reader of the pages**: from any object on, they get what is read page by
page. -/
theorem identifyAll_eq_pages {unit : UInt8} {model : ModbusSlaveModel σ}
    {identification : Identification} {objects : List (UInt8 × Bytes)}
    (hcatalogue : Catalogue identification objects) (fuel : Nat) {l : Link σ}
    (hidentifies : Identifies l.models unit model identification) {o : UInt8 × Bytes}
    {rest : List (UInt8 × Bytes)} (hsuffix : o :: rest <:+ objects) (w : World σ) :
    Link.identifyAll unit fuel l o.1 w = pages objectSize named 243 fuel (o :: rest) := by
  induction fuel generalizing l o rest w with
  | zero => rfl
  | succ fuel ih =>
    obtain ⟨response, w', hrequest, hobjects, hnext, hmore⟩ :=
      request_page l hidentifies hcatalogue hsuffix w
    rw [Link.identifyAll, hrequest, pages]
    simp only [hobjects, hnext, hmore]
    cases hresume : resume objectSize named 243 (o :: rest) with
    | none => rfl
    | some later =>
      obtain ⟨x, later, rfl, hnamed⟩ := resume_named objectSize hresume
      have hfollows : (nextObjectId (some (x :: later)) != 0) = true := hnamed
      have hmodels : (l.drawn unit).models = l.models := by
        rw [Link.drawn]
        split <;> rfl
      have hlater := ih (l := l.drawn unit) (hmodels ▸ hidentifies)
        ((resume_suffix objectSize hresume).trans hsuffix) w'
      simp only [hfollows, ↓reduceIte]
      exact congrArg _ hlater

/-- The whole catalogue is read if and only if its pages follow one another. -/
theorem identifyAll_iff_paged {l : Link σ} {unit : UInt8} {model : ModbusSlaveModel σ}
    {identification : Identification} {objects : List (UInt8 × Bytes)}
    (hcatalogue : Catalogue identification objects)
    (hidentifies : Identifies l.models unit model identification) (w : World σ) :
    (∃ fuel, Link.identifyAll unit fuel l 0x00 w = some objects) ↔ Paged objectSize 243 objects := by
  rw [← pages_eq_iff objectSize hcatalogue.nodup hcatalogue.named_tail]
  obtain ⟨o, rest, rfl, hzero⟩ := hcatalogue.head
  refine exists_congr fun fuel => ?_
  rw [← hzero, identifyAll_eq_pages hcatalogue fuel hidentifies List.suffix_rfl w]

/-- **Exactly when a device identification is read completely.** Over each protocol, with any chunks,
for every identification of a model and every order in which its entries are reported: the requests
come to an end with every object once, in ascending order and with its value, if and only if the
objects make pages that follow one another. -/
theorem identifyAll_catalogue_iff (l : Link σ) {unit : UInt8} {model : ModbusSlaveModel σ}
    (identification : Identification) (hidentifies : Identifies l.models unit model identification)
    (w : World σ) :
    (∃ fuel objects, Link.identifyAll unit fuel l 0x00 w = some objects ∧
        Catalogue identification objects) ↔
      ∃ objects, Catalogue identification objects ∧ Paged objectSize 243 objects := by
  constructor
  · rintro ⟨fuel, objects, hread, hcatalogue⟩
    exact ⟨objects, hcatalogue, (identifyAll_iff_paged hcatalogue hidentifies w).mp ⟨fuel, hread⟩⟩
  · rintro ⟨objects, hcatalogue, hpaged⟩
    obtain ⟨fuel, hread⟩ := (identifyAll_iff_paged hcatalogue hidentifies w).mpr hpaged
    exact ⟨fuel, objects, hread, hcatalogue⟩

/-! ## One extended object -/

/-- An identification with one object, of the id 0x80 and a value of `n` bytes. -/
def extended (n : Nat) (hn : n ≤ 245) : Identification where
  entries := [(0x80, List.replicate n 0x41)]
  nodup := List.nodup_singleton _
  ids := List.forall_mem_singleton.mpr (.inr (UInt8.le_refl _))
  values := List.forall_mem_singleton.mpr (by rwa [List.length_replicate])

/-- The model that reports it. -/
def extendedModel (n : Nat) : ModbusSlaveModel Unit where
  unit := 0x01
  addressRange := {}
  implemented
    | .readDeviceIdentification => some fun s => (.ok [(0x80, List.replicate n 0x41)], s)
    | _ => none

theorem identifies_extended (n : Nat) (hn : n ≤ 245) :
    Identifies (Link.tcpLink (extendedModel n)).models 0x01 (extendedModel n) (extended n hn) where
  notBroadcast := by decide
  addressed := rfl
  lets _ _ _ := rfl
  reports := ⟨_, rfl, fun _ => ⟨_, rfl, .refl _⟩⟩

theorem catalogue_extended (n : Nat) (hn : n ≤ 245) :
    Catalogue (extended n hn) (basicObjects ++ (extended n hn).entries) := by
  have hbasic : ∀ o ∈ basicObjects, o.1 < 0x80 := by decide
  refine ⟨?_, ?_⟩
  · refine List.pairwise_append.mpr ⟨by decide, List.pairwise_singleton .., ?_⟩
    intro o ho x hx
    rw [List.mem_singleton.mp hx]
    exact hbasic o ho
  · intro o
    rw [List.mem_append, or_comm, ← mem_basicObjects]
    refine or_congr_right (and_iff_left_of_imp ?_).symm
    intro ho hmem
    have hlt := hbasic o ho
    rw [List.mem_singleton.mp hmem] at hlt
    exact absurd hlt (UInt8.lt_irrefl _)

theorem size_extended {n : Nat} (hn : n ≤ 245) {o : UInt8 × Bytes} (ho : o ∈ (extended n hn).entries) :
    objectSize o = 2 + n := by
  rw [List.mem_singleton.mp ho, objectSize, List.length_replicate]

/-- A value that fits into a response gets a page of its own behind the basic objects. -/
theorem paged_extended {n : Nat} {hn : n ≤ 245} (hlarge : 223 < n) (hfits : n ≤ 241) :
    Paged objectSize 243 (basicObjects ++ (extended n hn).entries) := by
  have htotal : total objectSize (extended n hn).entries = 2 + n :=
    (Nat.add_zero _).trans (size_extended hn (List.mem_singleton_self _))
  have hbasic : total objectSize basicObjects = 18 := by decide
  have hlast : Paged objectSize 243 ((extended n hn).entries ++ []) :=
    .page (List.cons_ne_nil _ _) (by omega) (fun x hx => by cases hx) .nil
  rw [List.append_nil] at hlast
  refine .page (List.cons_ne_nil _ _) (by decide) ?_ hlast
  intro x hx
  rw [size_extended hn hx]
  omega

/-- An object of 235 bytes is read with a second request. -/
theorem identifyAll_two_pages :
    ∃ fuel objects, Link.identifyAll 0x01 fuel (Link.tcpLink (extendedModel 235)) 0x00 ⟨(), [], []⟩ =
        some objects ∧ Catalogue (extended 235 (by decide)) objects :=
  (identifyAll_catalogue_iff (Link.tcpLink (extendedModel 235)) (extended 235 (by decide))
    (identifies_extended 235 (by decide)) ⟨(), [], []⟩).mpr
      ⟨_, catalogue_extended 235 (by decide), paged_extended (by decide) (by decide)⟩

theorem le_of_paged {n : Nat} {hn : n ≤ 245} {objects : List (UInt8 × Bytes)}
    (hcatalogue : Catalogue (extended n hn) objects) (hpaged : Paged objectSize 243 objects) :
    n ≤ 241 := by
  have hobject : ((0x80 : UInt8), List.replicate n 0x41) ∈ objects :=
    (hcatalogue.complete _).mpr (.inl (List.mem_singleton_self _))
  have hfits := hpaged.size_le objectSize _ hobject
  rw [objectSize, List.length_replicate] at hfits
  omega

/-- An object of 242 bytes fits into no response, and is asked for over and over. -/
theorem identifyAll_endless :
    ¬ ∃ fuel objects, Link.identifyAll 0x01 fuel (Link.tcpLink (extendedModel 242)) 0x00
        ⟨(), [], []⟩ = some objects ∧ Catalogue (extended 242 (by decide)) objects := by
  rintro ⟨fuel, objects, hread, hcatalogue⟩
  have hpaged := (identifyAll_iff_paged hcatalogue (identifies_extended 242 (by decide))
    ⟨(), [], []⟩).mp ⟨fuel, hread⟩
  exact absurd (le_of_paged hcatalogue hpaged) (by decide)

end RsModbus
