import RsModbus.Library.Runs

/-!
# Segments of a stream

`Segments parts stream` says that the parts occur in the stream one after the other, without overlap.
A reader that holds the last symbols of its stream consumes from the front: `Consumes before after
parts` says that what it held is what it holds now behind symbols in which the parts are segments.
`feedAll_consumes` lifts this from one input to a run: what a reader emits are segments of what it
has read. `feedAll_apart` is the run of a reader that has been cut: nothing it emits reaches from what
it held into what it reads.
-/

namespace Library

variable {α β ε σ : Type*}

/-- The parts occur in the stream, one after the other. -/
def Segments : List (List α) → List α → Prop
  | [], _ => True
  | part :: parts, stream => ∃ gap rest, stream = gap ++ (part ++ rest) ∧ Segments parts rest

namespace Segments

variable {parts parts' : List (List α)} {stream stream' : List α}

/-- Symbols in front of a stream leave its segments. -/
theorem append_left (h : Segments parts stream) (front : List α) :
    Segments parts (front ++ stream) := by
  cases parts with
  | nil => trivial
  | cons part parts =>
    obtain ⟨gap, rest, rfl, hrest⟩ := h
    exact ⟨front ++ gap, rest, (List.append_assoc ..).symm, hrest⟩

/-- Segments of two streams are segments of the two together. -/
theorem append (h : Segments parts stream) (h' : Segments parts' stream') :
    Segments (parts ++ parts') (stream ++ stream') := by
  induction parts generalizing stream with
  | nil => exact h'.append_left stream
  | cons part parts ih =>
    obtain ⟨gap, rest, rfl, hrest⟩ := h
    refine ⟨gap, rest ++ stream', ?_, ih hrest⟩
    rw [List.append_assoc, List.append_assoc]

/-- A segment in front. -/
theorem cons (part : List α) (h : Segments parts stream) :
    Segments (part :: parts) (part ++ stream) := ⟨[], stream, rfl, h⟩

theorem append_right (h : Segments parts stream) (back : List α) : Segments parts (stream ++ back) := by
  have hparts : Segments (parts ++ []) (stream ++ back) := h.append trivial
  rwa [List.append_nil] at hparts

end Segments

/-- What was held is what is held behind symbols in which the parts are segments. -/
def Consumes (before after : List α) (parts : List (List α)) : Prop :=
  ∃ consumed, before = consumed ++ after ∧ Segments parts consumed

namespace Consumes

variable {before between after : List α} {parts parts' : List (List α)}

theorem refl (held : List α) : Consumes held held [] := ⟨[], rfl, trivial⟩

/-- Everything is dropped. -/
theorem dropAll (held : List α) : Consumes held [] [] := ⟨held, (List.append_nil _).symm, trivial⟩

/-- Some symbols are dropped first. -/
theorem append_left (h : Consumes before after parts) (front : List α) :
    Consumes (front ++ before) after parts := by
  obtain ⟨consumed, rfl, hparts⟩ := h
  exact ⟨front ++ consumed, (List.append_assoc ..).symm, hparts.append_left front⟩

/-- A part is cut off first. -/
theorem cons (part : List α) (h : Consumes before after parts) :
    Consumes (part ++ before) after (part :: parts) := by
  obtain ⟨consumed, rfl, hparts⟩ := h
  exact ⟨part ++ consumed, (List.append_assoc ..).symm, hparts.cons part⟩

/-- What is read in between goes behind what is held. -/
theorem trans {read : List α} (h : Consumes before between parts)
    (h' : Consumes (between ++ read) after parts') :
    Consumes (before ++ read) after (parts ++ parts') := by
  obtain ⟨consumed, rfl, hparts⟩ := h
  obtain ⟨consumed', hread, hparts'⟩ := h'
  refine ⟨consumed ++ consumed', ?_, hparts.append hparts'⟩
  rw [List.append_assoc, hread, List.append_assoc]

end Consumes

/-- **What a reader emits are segments of what it has read.** -/
theorem feedAll_consumes {step : σ → β → σ × List ε} {inv : σ → Prop} {held : σ → List α}
    {reads : β → List α} {part : ε → Option (List α)}
    (one : ∀ s b, inv s → inv (step s b).1 ∧
      Consumes (held s ++ reads b) (held (step s b).1) ((step s b).2.filterMap part))
    (bs : List β) {s : σ} (hs : inv s) :
    inv (feedAll step s bs).1 ∧
      Consumes (held s ++ bs.flatMap reads) (held (feedAll step s bs).1)
        ((feedAll step s bs).2.filterMap part) := by
  induction bs generalizing s with
  | nil =>
    refine ⟨hs, ?_⟩
    rw [List.flatMap_nil, List.append_nil]
    exact .refl _
  | cons b bs ih =>
    obtain ⟨hnext, hone⟩ := one s b hs
    obtain ⟨hend, hrest⟩ := ih hnext
    refine ⟨hend, ?_⟩
    rw [feedAll_cons, List.flatMap_cons, ← List.append_assoc, List.filterMap_append]
    exact hone.trans hrest

/-- **What a cut reader emits.** A state is cut when what is held will not be joined with what is
still to be read: until a symbol is read the state stays cut, and the first symbols read leave
nothing of what was held. Then what is emitted are segments of what was held, followed by segments of
what is read. -/
theorem feedAll_apart {step : σ → β → σ × List ε} {inv cut : σ → Prop} {held : σ → List α}
    {reads : β → List α} {part : ε → Option (List α)}
    (one : ∀ s b, inv s → inv (step s b).1 ∧
      Consumes (held s ++ reads b) (held (step s b).1) ((step s b).2.filterMap part))
    (apart : ∀ s b, inv s → cut s → cut (step s b).1 ∧ reads b = [] ∨
      Consumes (reads b) (held (step s b).1) ((step s b).2.filterMap part))
    (bs : List β) {s : σ} (hs : inv s) (hcut : cut s) :
    ∃ early late, (feedAll step s bs).2.filterMap part = early ++ late ∧
      Segments early (held s) ∧ Segments late (bs.flatMap reads) := by
  induction bs generalizing s with
  | nil => exact ⟨[], [], rfl, trivial, trivial⟩
  | cons b bs ih =>
    obtain ⟨hnext, hone⟩ := one s b hs
    rw [feedAll_cons, List.filterMap_append, List.flatMap_cons]
    rcases apart s b hs hcut with ⟨hstill, hnone⟩ | hdropped
    · obtain ⟨early, late, hparts, hearly, hlate⟩ := ih hnext hstill
      rw [hnone, List.append_nil] at hone
      obtain ⟨consumed, hheld, hconsumed⟩ := hone
      refine ⟨(step s b).2.filterMap part ++ early, late, ?_, ?_, ?_⟩
      · rw [hparts, List.append_assoc]
      · rw [hheld]
        exact hconsumed.append hearly
      · rwa [hnone, List.nil_append]
    · obtain ⟨-, hrest⟩ := feedAll_consumes one bs hnext
      obtain ⟨consumed, hread, hconsumed⟩ := hdropped.trans hrest
      refine ⟨[], _, rfl, trivial, ?_⟩
      rw [hread]
      exact hconsumed.append_right _

end Library
