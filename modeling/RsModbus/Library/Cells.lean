import Mathlib.Logic.Function.Basic
import Mathlib.Data.List.Induction

/-!
# Cells

A memory is a function of its addresses, and a window is an enumeration `address : ℕ → α` of some of
them. `readCells` reads the first cells of a window, and `writeCells` writes a list of values over
them, one cell after the other.

* `readCells_writeCells`: what was written to distinct cells is read back.
* `map_writeCells`: a view of the values commutes with writing them.
-/

namespace Library

variable {α β γ : Type*}

/-- The values in the first `n` cells of a window. -/
def readCells (cells : α → β) (address : ℕ → α) (n : ℕ) : List β :=
  (List.range n).map fun i => cells (address i)

@[simp] theorem length_readCells (cells : α → β) (address : ℕ → α) (n : ℕ) :
    (readCells cells address n).length = n := by
  rw [readCells, List.length_map, List.length_range]

theorem readCells_congr {cells cells' : α → β} {address : ℕ → α} {n : ℕ}
    (h : ∀ i < n, cells (address i) = cells' (address i)) :
    readCells cells address n = readCells cells' address n := by
  apply List.map_congr_left
  intro i hi
  exact h i (List.mem_range.mp hi)

variable [DecidableEq α]

/-- The cells after the values have been written over the window. -/
def writeCells (cells : α → β) (address : ℕ → α) (vs : List β) : α → β :=
  vs.zipIdx.foldl (fun cells v => Function.update cells (address v.2) v.1) cells

variable (cells : α → β) (address : ℕ → α)

@[simp] theorem writeCells_nil : writeCells cells address [] = cells := rfl

/-- The last value is written last. -/
theorem writeCells_concat (vs : List β) (v : β) : writeCells cells address (vs ++ [v]) =
    Function.update (writeCells cells address vs) (address vs.length) v := by
  rw [writeCells, List.zipIdx_append, List.foldl_append, Nat.zero_add]
  rfl

variable {cells address}

/-- A cell outside the window keeps its value. -/
theorem writeCells_of_ne {a : α} {vs : List β} (h : ∀ i < vs.length, address i ≠ a) :
    writeCells cells address vs a = cells a := by
  induction vs using List.reverseRecOn with
  | nil => rfl
  | append_singleton vs v ih =>
    rw [List.length_append, List.length_singleton] at h
    rw [writeCells_concat, Function.update_of_ne (h vs.length (Nat.lt_succ_self _)).symm]
    exact ih fun i hi => h i (Nat.lt_succ_of_lt hi)

/-- **What was written is read back**, when the cells of the window are distinct. -/
theorem readCells_writeCells {vs : List β}
    (distinct : ∀ i < vs.length, ∀ j < vs.length, address i = address j → i = j) :
    readCells (writeCells cells address vs) address vs.length = vs := by
  induction vs using List.reverseRecOn with
  | nil => rfl
  | append_singleton vs v ih =>
    rw [List.length_append, List.length_singleton] at distinct ⊢
    have hrest : ∀ i < vs.length, address i ≠ address vs.length := fun i hi heq =>
      absurd (distinct i (Nat.lt_succ_of_lt hi) vs.length (Nat.lt_succ_self _) heq)
        (Nat.ne_of_lt hi)
    have hkept : ∀ i < vs.length,
        Function.update (writeCells cells address vs) (address vs.length) v (address i) =
          writeCells cells address vs (address i) := by
      intro i hi
      rw [Function.update_of_ne (hrest i hi)]
    have hwindow := (readCells_congr hkept).trans
      (ih fun i hi j hj => distinct i (Nat.lt_succ_of_lt hi) j (Nat.lt_succ_of_lt hj))
    rw [writeCells_concat]
    unfold readCells at hwindow ⊢
    rw [List.range_succ, List.map_append, hwindow, List.map_singleton, Function.update_self]

/-- A view of the values commutes with writing them. -/
theorem map_writeCells (f : β → γ) (vs : List β) :
    (fun a => f (writeCells cells address vs a)) =
      writeCells (fun a => f (cells a)) address (vs.map f) := by
  induction vs using List.reverseRecOn with
  | nil => rfl
  | append_singleton vs v ih =>
    rw [List.map_append, List.map_singleton, writeCells_concat, writeCells_concat, List.length_map,
      ← ih]
    ext a
    by_cases h : a = address vs.length
    · subst h
      rw [Function.update_self, Function.update_self]
    · rw [Function.update_of_ne h, Function.update_of_ne h]

end Library
