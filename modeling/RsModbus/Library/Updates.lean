import Mathlib.Logic.Function.Basic
import Mathlib.Data.List.Basic

/-!
# Updates of cells

An update changes one cell by a function of its value. `replay` is a sequential execution. A task
that reads the cell first and writes the function's value later does what the update does at the
moment of the write, as long as what it has read is `Fresh` then.
-/

namespace Library

/-- An update of one cell. -/
structure Update (κ υ : Type*) where
  cell : κ
  apply : υ → υ

namespace Update

variable {κ υ : Type*} [DecidableEq κ] {u : Update κ υ} {cells : κ → υ} {read : υ}

/-- The cells after an update. -/
def run (u : Update κ υ) (cells : κ → υ) : κ → υ :=
  Function.update cells u.cell (u.apply (cells u.cell))

/-- The cells after updates, one after the other. -/
def replay (cells : κ → υ) (updates : List (Update κ υ)) : κ → υ :=
  updates.foldl (fun cells u => u.run cells) cells

theorem replay_concat (cells : κ → υ) (updates : List (Update κ υ)) (u : Update κ υ) :
    replay cells (updates ++ [u]) = u.run (replay cells updates) := by
  rw [replay, List.foldl_append]
  rfl

/-- What was read of the cell is as good for the update as what the cell has now. -/
def Fresh (u : Update κ υ) (read : υ) (cells : κ → υ) : Prop :=
  u.apply read = u.apply (cells u.cell)

/-- A write of another cell keeps what was read fresh. -/
theorem Fresh.of_ne (h : Fresh u read cells) {k : κ} (hk : u.cell ≠ k) (v : υ) :
    Fresh u read (Function.update cells k v) := by
  unfold Fresh
  rw [Function.update_of_ne hk]
  exact h

/-- A write of the cell keeps what was read fresh if the update makes no difference. -/
theorem fresh_update {v : υ} (hv : u.apply read = u.apply v) :
    Fresh u read (Function.update cells u.cell v) := by
  unfold Fresh
  rw [Function.update_self]
  exact hv

/-- Writing with a fresh value is the update. -/
theorem Fresh.run_eq (h : Fresh u read cells) :
    Function.update cells u.cell (u.apply read) = u.run cells := by
  rw [run, h]

end Update

end Library
