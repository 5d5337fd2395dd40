import RsModbus.Library.Runs

/-!
# Delimited streams

A **splitter** cuts the frames off the front of the symbols buffered so far and retains the rest:
`split c b = (outputs, retained)`, where `c` is what the reader knows of the read in progress (its
reply handle, say). A reader of a stream appends each chunk to what it retained and splits again
(`feedSplit`).

`Delimited split view frame` is what a splitter owes a class of frames `frame f y` (`f` the symbols,
`y` what an output must show of it, by `view`): a buffer that starts with a frame yields it and goes
on with the rest (`whole`), and a proper prefix of a frame is retained untouched (`part`).

The law is `feedSplit_frames`: **however a concatenation of frames is cut into chunks, the reader
emits exactly those frames, in order, and retains nothing**. `feedSplit_prefix` is its form for a
stream still under way: what is emitted are the frames that have arrived whole, and what is retained
is the part of the next one.
-/

namespace Library

variable {α β ε δ : Type*}

/-- What a splitter owes its frames. -/
structure Delimited (split : β → List α → List ε × List α) (view : ε → δ)
    (frame : List α → δ → Prop) : Prop where
  nil : ∀ c, split c [] = ([], [])
  pos : ∀ {f y}, frame f y → f ≠ []
  whole : ∀ {f y}, frame f y → ∀ c b, ∃ x, view x = y ∧
    split c (f ++ b) = (x :: (split c b).1, (split c b).2)
  part : ∀ {f y}, frame f y → ∀ c p, p <+: f → p ≠ f → split c p = ([], p)

/-- One read: the chunk goes behind what is retained, and the splitter runs again. -/
def feedSplit (split : β → List α → List ε × List α) (retained : List α) (read : β × List α) :
    List α × List ε :=
  ((split read.1 (retained ++ read.2)).2, (split read.1 (retained ++ read.2)).1)

/-- `p` is less than the next frame of `todo`. -/
def Short (p : List α) : List (List α × δ) → Prop
  | [] => p = []
  | (f, _) :: _ => p.length < f.length

variable {split : β → List α → List ε × List α} {view : ε → δ} {frame : List α → δ → Prop}

/-- Splitting a prefix of a concatenation of frames: the frames that are whole are cut off, and
less than a frame is retained. -/
theorem Delimited.split_prefix (d : Delimited split view frame) (c : β) :
    ∀ (fs : List (List α × δ)) (b later : List α), (∀ p ∈ fs, frame p.1 p.2) →
      b ++ later = (fs.map Prod.fst).flatten →
      ∃ done todo, fs = done ++ todo ∧ (split c b).1.map view = done.map Prod.snd ∧
        b = (done.map Prod.fst).flatten ++ (split c b).2 ∧ Short (split c b).2 todo
  | [], b, later, _, h => by
    obtain ⟨rfl, rfl⟩ := List.append_eq_nil_iff.mp h
    exact ⟨[], [], rfl, by rw [d.nil]; rfl, by rw [d.nil]; rfl, by rw [d.nil]; rfl⟩
  | (f, y) :: fs, b, later, hfs, h => by
    have hf : frame f y := hfs (f, y) List.mem_cons_self
    rw [List.map_cons, List.flatten_cons] at h
    by_cases hlen : b.length < f.length
    · -- the read stops inside `f`
      have hp : b <+: f := List.prefix_of_prefix_length_le (List.prefix_append b later)
        (h ▸ List.prefix_append f _) (Nat.le_of_lt hlen)
      have hne : b ≠ f := fun e => absurd hlen (by rw [e]; exact Nat.lt_irrefl _)
      rw [d.part hf c b hp hne]
      exact ⟨[], (f, y) :: fs, rfl, rfl, rfl, hlen⟩
    · -- `f` is whole: cut it off and go on with the rest
      obtain ⟨b', rfl⟩ : f <+: b := List.prefix_of_prefix_length_le
        (h ▸ List.prefix_append f _) (List.prefix_append b later) (Nat.le_of_not_lt hlen)
      rw [List.append_assoc, List.append_cancel_left_eq] at h
      obtain ⟨done, todo, hfs', hout, hb, hshort⟩ :=
        d.split_prefix c fs b' later (fun p hp => hfs p (List.mem_cons_of_mem _ hp)) h
      obtain ⟨x, hx, hsplit⟩ := d.whole hf c b'
      rw [hsplit]
      refine ⟨(f, y) :: done, todo, by rw [hfs', List.cons_append], ?_, ?_, hshort⟩
      · rw [List.map_cons, List.map_cons, hx, hout]
      · rw [List.map_cons, List.flatten_cons, List.append_assoc, ← hb]

/-- **Reading a stream under way.** What the reader emits are the frames that have arrived whole,
and what it retains is less than the next frame. -/
theorem Delimited.feedSplit_prefix (d : Delimited split view frame) :
    ∀ (reads : List (β × List α)) (fs : List (List α × δ)) (retained later : List α),
      (∀ p ∈ fs, frame p.1 p.2) →
      retained ++ (reads.map Prod.snd).flatten ++ later = (fs.map Prod.fst).flatten →
      Short retained fs →
      ∃ done todo, fs = done ++ todo ∧
        (feedAll (feedSplit split) retained reads).2.map view = done.map Prod.snd ∧
        retained ++ (reads.map Prod.snd).flatten =
          (done.map Prod.fst).flatten ++ (feedAll (feedSplit split) retained reads).1 ∧
        Short (feedAll (feedSplit split) retained reads).1 todo
  | [], fs, retained, later, _, _, hshort =>
    ⟨[], fs, rfl, rfl, by rw [List.map_nil, List.flatten_nil, List.append_nil]; rfl, hshort⟩
  | (c, chunk) :: reads, fs, retained, later, hfs, h, _ => by
    rw [List.map_cons, List.flatten_cons, ← List.append_assoc] at h
    obtain ⟨done, todo, rfl, hout, hb, hshort⟩ := d.split_prefix c fs (retained ++ chunk)
      ((reads.map Prod.snd).flatten ++ later) hfs (by rw [← List.append_assoc]; exact h)
    have hrest : (split c (retained ++ chunk)).2 ++ (reads.map Prod.snd).flatten ++ later =
        (todo.map Prod.fst).flatten := by
      rw [hb, List.map_append, List.flatten_append, List.append_assoc, List.append_assoc,
        List.append_cancel_left_eq] at h
      rw [List.append_assoc]
      exact h
    obtain ⟨done', todo', rfl, hout', hb', hshort'⟩ :=
      d.feedSplit_prefix reads todo (split c (retained ++ chunk)).2 later
        (fun p hp => hfs p (List.mem_append_right _ hp)) hrest hshort
    refine ⟨done ++ done', todo', (List.append_assoc _ _ _).symm, ?_, ?_, hshort'⟩
    · rw [feedAll_cons, List.map_append, List.map_append]
      exact congrArg₂ (· ++ ·) hout hout'
    · rw [List.map_cons, List.flatten_cons, ← List.append_assoc, hb, List.append_assoc, hb',
        List.map_append, List.flatten_append, List.append_assoc]
      rfl

/-- **Chunk independence.** However a concatenation of frames is cut into reads, the reader emits
exactly those frames, in order, and retains nothing. -/
theorem Delimited.feedSplit_frames (d : Delimited split view frame) {reads : List (β × List α)}
    {fs : List (List α × δ)} (hfs : ∀ p ∈ fs, frame p.1 p.2)
    (h : (reads.map Prod.snd).flatten = (fs.map Prod.fst).flatten) :
    (feedAll (feedSplit split) [] reads).1 = [] ∧
      (feedAll (feedSplit split) [] reads).2.map view = fs.map Prod.snd := by
  have hshort : Short ([] : List α) fs := by
    cases fs with
    | nil => rfl
    | cons p _ => exact List.length_pos_iff.mpr (d.pos (hfs p List.mem_cons_self))
  obtain ⟨done, todo, rfl, hout, hb, hshort'⟩ :=
    d.feedSplit_prefix reads fs [] [] hfs (by rw [List.append_nil]; exact h) hshort
  rw [List.nil_append, h, List.map_append, List.flatten_append,
    List.append_cancel_left_eq] at hb
  cases todo with
  | nil => exact ⟨hshort', by rw [hout, List.append_nil]⟩
  | cons p todo =>
    -- less than `p` is retained, yet all of `p` is left
    rw [List.map_cons, List.flatten_cons] at hb
    have hlen := congrArg List.length hb
    rw [List.length_append] at hlen
    exact absurd (show _ < p.1.length from hshort') (by omega)

/-! ## Readers that keep their own state -/

/-- A reader whose state stands for what it retains, and which may cut each of its inputs into
several reads, reads the concatenation of its inputs. -/
theorem feedAll_reads {σ ι : Type*} {step : σ → ι → σ × List ε} {abs : σ → List α}
    {inv : σ → Prop} {data : ι → List α} {mine : ι → Prop}
    (sim : ∀ s i, inv s → mine i → inv (step s i).1 ∧ ∃ reads : List (β × List α),
      (reads.map Prod.snd).flatten = data i ∧
        feedAll (feedSplit split) (abs s) reads = (abs (step s i).1, (step s i).2)) :
    ∀ (is : List ι) (s : σ), inv s → (∀ i ∈ is, mine i) →
      inv (feedAll step s is).1 ∧ ∃ reads : List (β × List α),
        (reads.map Prod.snd).flatten = (is.map data).flatten ∧
          feedAll (feedSplit split) (abs s) reads =
            (abs (feedAll step s is).1, (feedAll step s is).2)
  | [], _, hs, _ => ⟨hs, [], rfl, rfl⟩
  | i :: is, s, hs, his => by
    obtain ⟨hs', first, hdata, hrun⟩ := sim s i hs (his i List.mem_cons_self)
    obtain ⟨hend, rest, hdata', hrun'⟩ :=
      feedAll_reads sim is (step s i).1 hs' fun j hj => his j (List.mem_cons_of_mem _ hj)
    refine ⟨hend, first ++ rest, ?_, ?_⟩
    · rw [List.map_append, List.flatten_append, hdata, hdata', List.map_cons, List.flatten_cons]
    · rw [feedAll_append, hrun, hrun', feedAll_cons]

end Library
