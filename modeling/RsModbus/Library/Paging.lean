import Mathlib.Data.List.Basic
import Mathlib.Data.List.Nodup

/-!
# Reading a list in pages

A server packs items into a page greedily: an item that does not fit is left out, and later items
that fit are still taken (`pick`). It names the first item it left out, if that item can be named, and
the next page resumes there (`resume`). `pages` is the reader that asks for page after page and puts
what it gets together.

The reader gets back the list it reads exactly when the pages follow one another: when the items that
fit come first and no later item fits into what they leave (`Paged`, `pages_eq_iff`). Any other list
repeats items, loses some, or asks for the same page for ever.
-/

namespace Library

variable {α : Type*} (size : α → Nat)

/-! ## One page -/

/-- The items that are taken into a page with this much room. -/
def pick : Nat → List α → List α
  | _, [] => []
  | room, x :: xs => if size x ≤ room then x :: pick (room - size x) xs else pick room xs

/-- What is left to read from the first item on that was left out and can be named. -/
def resume (named : α → Bool) : Nat → List α → Option (List α)
  | _, [] => none
  | room, x :: xs =>
    if size x ≤ room then resume named (room - size x) xs
    else if named x then some (x :: xs) else resume named room xs

/-- The size of items together. -/
def total : List α → Nat
  | [] => 0
  | x :: xs => size x + total xs

@[simp] theorem total_nil : total size [] = 0 := rfl

@[simp] theorem total_cons (x : α) (xs : List α) : total size (x :: xs) = size x + total size xs :=
  rfl

theorem size_le_total {x : α} {xs : List α} (h : x ∈ xs) : size x ≤ total size xs := by
  induction xs with
  | nil => cases h
  | cons y xs ih =>
    rw [total_cons]
    rcases List.mem_cons.mp h with rfl | h
    · exact Nat.le_add_right _ _
    · exact Nat.le_trans (ih h) (Nat.le_add_left _ _)

theorem pick_sublist : ∀ (room : Nat) (xs : List α), (pick size room xs).Sublist xs
  | _, [] => .slnil
  | room, x :: xs => by
    simp only [pick]
    split
    · exact (pick_sublist _ xs).cons_cons x
    · exact (pick_sublist room xs).cons x

theorem total_pick_le : ∀ (room : Nat) (xs : List α), total size (pick size room xs) ≤ room
  | _, [] => Nat.zero_le _
  | room, x :: xs => by
    simp only [pick]
    split
    next hfits =>
      have hrest := total_pick_le (room - size x) xs
      rw [total_cons]
      omega
    · exact total_pick_le room xs

/-- Nothing is taken when nothing fits. -/
theorem pick_eq_nil_iff {room : Nat} {xs : List α} :
    pick size room xs = [] ↔ ∀ x ∈ xs, room < size x := by
  induction xs with
  | nil => simp only [pick, List.not_mem_nil, false_imp_iff, implies_true]
  | cons x xs ih =>
    simp only [pick, List.forall_mem_cons]
    split
    next hfits => simp only [reduceCtorEq, Nat.not_lt.mpr hfits, false_and]
    next hover => rw [ih, and_iff_right (Nat.lt_of_not_le hover)]

/-- Items that fit, and are followed by items that do not, are what is taken. -/
theorem pick_append {room : Nat} {taken rest : List α} (hfits : total size taken ≤ room)
    (hrest : ∀ x ∈ rest, room < total size taken + size x) :
    pick size room (taken ++ rest) = taken := by
  induction taken generalizing room with
  | nil => exact (pick_eq_nil_iff size).mpr fun x hx => Nat.zero_add (size x) ▸ hrest x hx
  | cons x taken ih =>
    rw [total_cons] at hfits hrest
    rw [List.cons_append, pick, if_pos (by omega), ih (by omega)]
    intro y hy
    have hy := hrest y hy
    omega

/-- What is taken from the front of a list without repetitions leaves room for none of the rest. -/
theorem over_of_pick {room : Nat} {taken rest : List α} (hnodup : (taken ++ rest).Nodup)
    (h : pick size room (taken ++ rest) = taken) : ∀ x ∈ rest, room < total size taken + size x := by
  induction taken generalizing room with
  | nil =>
    intro x hx
    rw [total_nil, Nat.zero_add]
    exact (pick_eq_nil_iff size).mp h x hx
  | cons y taken ih =>
    rw [List.cons_append] at hnodup h
    obtain ⟨hy, hnodup⟩ := List.nodup_cons.mp hnodup
    rw [pick] at h
    split at h
    next hfits =>
      intro x hx
      have hx := ih hnodup (List.cons.inj h).2 x hx
      rw [total_cons]
      omega
    next hover =>
      have hmem : y ∈ pick size room (taken ++ rest) := by
        rw [h]
        exact List.mem_cons_self
      exact absurd ((pick_sublist size room _).subset hmem) hy

section Named

variable {named : α → Bool}

/-- After items that fit, reading resumes at the first of the rest, if nothing of it fits and all of
it can be named. -/
theorem resume_append {room : Nat} {taken rest : List α} (hfits : total size taken ≤ room)
    (hrest : ∀ x ∈ rest, room < total size taken + size x) (hnamed : ∀ x ∈ rest, named x = true) :
    resume size named room (taken ++ rest) = if rest.isEmpty then none else some rest := by
  induction taken generalizing room with
  | nil =>
    cases rest with
    | nil => rfl
    | cons x rest =>
      have hover : ¬ size x ≤ room := by
        have hx := hrest x List.mem_cons_self
        rw [total_nil] at hx
        omega
      rw [List.nil_append, resume, if_neg hover, if_pos (hnamed x List.mem_cons_self)]
      rfl
  | cons x taken ih =>
    rw [total_cons] at hfits hrest
    rw [List.cons_append, resume, if_pos (by omega), ih (by omega)]
    intro y hy
    have hy := hrest y hy
    omega

/-- Reading resumes at a suffix. -/
theorem resume_suffix : ∀ {room : Nat} {xs rest : List α}, resume size named room xs = some rest →
    rest <:+ xs
  | _, [], _, h => by cases h
  | room, x :: xs, rest, h => by
    rw [resume] at h
    split at h
    · exact (resume_suffix h).trans (List.suffix_cons x xs)
    · split at h
      · cases h
        exact List.suffix_rfl
      · exact (resume_suffix h).trans (List.suffix_cons x xs)

/-- Reading resumes at an item that can be named. -/
theorem resume_named : ∀ {room : Nat} {xs rest : List α}, resume size named room xs = some rest →
    ∃ x later, rest = x :: later ∧ named x = true
  | _, [], _, h => by cases h
  | room, x :: xs, rest, h => by
    rw [resume] at h
    split at h
    · exact resume_named h
    · split at h
      next hnamed =>
        cases h
        exact ⟨x, xs, rfl, hnamed⟩
      · exact resume_named h

/-! ## Page after page -/

variable (named)

/-- The reader: all pages put together, `none` when it has not come to the end. -/
def pages (capacity : Nat) : Nat → List α → Option (List α)
  | 0, _ => none
  | fuel + 1, xs =>
    match resume size named capacity xs with
    | none => some (pick size capacity xs)
    | some rest => (pages capacity fuel rest).map (pick size capacity xs ++ ·)

/-- A list whose pages follow one another: the items of a page fit together, and no later item fits
into what they leave. -/
inductive Paged (capacity : Nat) : List α → Prop
  | nil : Paged capacity []
  | page {p rest : List α} (hp : p ≠ []) (hfits : total size p ≤ capacity)
    (hover : ∀ x ∈ rest, capacity < total size p + size x) (h : Paged capacity rest) :
    Paged capacity (p ++ rest)

variable {named} {capacity : Nat}

/-- Every item of such a list fits into a page. -/
theorem Paged.size_le {xs : List α} (h : Paged size capacity xs) : ∀ x ∈ xs, size x ≤ capacity := by
  induction h with
  | nil =>
    intro x hx
    cases hx
  | @page p rest hp hfits hover h ih =>
    intro x hx
    rcases List.mem_append.mp hx with hx | hx
    · exact Nat.le_trans (size_le_total size hx) hfits
    · exact ih x hx

/-- What is read is in the list. -/
theorem mem_of_pages {fuel : Nat} {xs read : List α} (h : pages size named capacity fuel xs = some read) :
    ∀ x ∈ read, x ∈ xs := by
  induction fuel generalizing xs read with
  | zero => cases h
  | succ fuel ih =>
    intro x hx
    rw [pages] at h
    split at h
    · cases h
      exact (pick_sublist size capacity xs).subset hx
    next rest hresume =>
      obtain ⟨later, hlater, rfl⟩ := Option.map_eq_some_iff.mp h
      rcases List.mem_append.mp hx with hx | hx
      · exact (pick_sublist size capacity xs).subset hx
      · exact (resume_suffix size hresume).subset (ih hlater x hx)

/-- A list whose pages follow one another is read as it is. -/
theorem Paged.pages {xs : List α} (h : Paged size capacity xs)
    (hnamed : ∀ x ∈ xs.tail, named x = true) :
    ∃ fuel, pages size named capacity fuel xs = some xs := by
  induction h with
  | nil => exact ⟨1, rfl⟩
  | @page p rest hp hfits hover h ih =>
    have hlater : ∀ x ∈ rest, named x = true := by
      intro x hx
      apply hnamed
      cases p with
      | nil => exact absurd rfl hp
      | cons y p => exact List.mem_append_right p hx
    obtain ⟨fuel, hread⟩ := ih fun x hx => hlater x (List.mem_of_mem_tail hx)
    refine ⟨fuel + 1, ?_⟩
    rw [Library.pages, resume_append size hfits hover hlater, pick_append size hfits hover]
    cases rest with
    | nil => rw [List.append_nil]; rfl
    | cons x rest =>
      simp only [List.isEmpty_cons, Bool.false_eq_true, ↓reduceIte, hread, Option.map_some]

/-- A list that is read as it is has pages that follow one another. -/
theorem paged_of_pages {fuel : Nat} {xs : List α} (hnodup : xs.Nodup)
    (hnamed : ∀ x ∈ xs.tail, named x = true) (h : pages size named capacity fuel xs = some xs) :
    Paged size capacity xs := by
  induction fuel generalizing xs with
  | zero => cases h
  | succ fuel ih =>
    rw [pages] at h
    split at h
    next hresume =>
      have hall := Option.some.inj h
      by_cases hnil : xs = []
      · rw [hnil]
        exact .nil
      · have hfits : total size xs ≤ capacity := hall ▸ total_pick_le size capacity xs
        have hpage : Paged size capacity (xs ++ []) :=
          .page hnil hfits (fun x hx => by cases hx) .nil
        rwa [List.append_nil] at hpage
    next rest hresume =>
      obtain ⟨later, hlater, hread⟩ := Option.map_eq_some_iff.mp h
      generalize htaken : pick size capacity xs = taken at hread
      subst hread
      have hover := over_of_pick size hnodup htaken
      cases taken with
      | nil =>
        -- an empty page: the same list is read again, unless its first item cannot be named
        rw [List.nil_append] at hnodup hnamed hresume
        cases later with
        | nil => cases hresume
        | cons x later =>
          have hx : ¬ size x ≤ capacity := by
            have hx := hover x List.mem_cons_self
            rw [total_nil] at hx
            omega
          rw [resume, if_neg hx] at hresume
          split at hresume
          · cases hresume
            exact ih hnodup hnamed hlater
          · have hmem := mem_of_pages size hlater x List.mem_cons_self
            exact absurd ((resume_suffix size hresume).subset hmem) (List.nodup_cons.mp hnodup).1
      | cons y taken =>
        have hfits : total size (y :: taken) ≤ capacity := htaken ▸ total_pick_le size capacity _
        have hnamed' : ∀ x ∈ later, named x = true :=
          fun x hx => hnamed x (List.mem_append_right taken hx)
        rw [resume_append size hfits hover hnamed'] at hresume
        cases later with
        | nil => cases hresume
        | cons x later =>
          cases hresume
          refine .page (List.cons_ne_nil y taken) hfits hover (ih ?_ ?_ hlater)
          · exact (List.nodup_append.mp hnodup).2.1
          · exact fun x hx => hnamed' x (List.mem_of_mem_tail hx)

/-- **The reader gets the list exactly when its pages follow one another.** -/
theorem pages_eq_iff {xs : List α} (hnodup : xs.Nodup) (hnamed : ∀ x ∈ xs.tail, named x = true) :
    (∃ fuel, pages size named capacity fuel xs = some xs) ↔ Paged size capacity xs := by
  constructor
  · rintro ⟨fuel, h⟩
    exact paged_of_pages size hnodup hnamed h
  · exact fun h => h.pages size hnamed

end Named

end Library
