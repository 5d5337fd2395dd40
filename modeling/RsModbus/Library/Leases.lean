import Mathlib.Data.List.Basic

/-!
# Histories of leases

Keys are given identifiers for as long as they last. A history says which key was used under which
identifier, with some mark of the use, and which key was given up, the newest event first. `held` is what
a key holds after a history; a history is `Lawful` when every use is under the identifier that the key
holds or, if it holds none, under one that was never used.

`Lawful.same_iff`: in a lawful history two uses are under one identifier exactly when they are of one
key that was not given up in between.
-/

namespace Library

variable {α κ τ : Type*}

/-- A key is used under an identifier, or given up. -/
inductive Lease (α κ τ : Type*) where
  | use (key : α) (id : κ) (mark : τ)
  | stop (key : α)

namespace Lease

variable [DecidableEq α]

/-- What `key` holds after a history, and the mark of its latest use. -/
def held (key : α) : List (Lease α κ τ) → Option (κ × τ)
  | [] => none
  | use key' id mark :: log => if key = key' then some (id, mark) else held key log
  | stop key' :: log => if key = key' then none else held key log

/-- `id` may be used for `key` after a history. -/
def Allowed (key : α) (id : κ) (log : List (Lease α κ τ)) : Prop :=
  match held key log with
  | some (id', _) => id = id'
  | none => ∀ key' mark, use key' id mark ∉ log

/-- Every use was allowed. -/
def Lawful : List (Lease α κ τ) → Prop
  | [] => True
  | use key id _ :: log => Allowed key id log ∧ Lawful log
  | stop _ :: log => Lawful log

variable {log newer between older : List (Lease α κ τ)} {key key' : α} {id id' : κ} {mark mark' : τ}

@[simp] theorem held_use_self : held key (use key id mark :: log) = some (id, mark) := if_pos rfl

@[simp] theorem held_stop_self : held key (stop key :: log) = none := if_pos rfl

theorem held_use_ne (h : key ≠ key') : held key (use key' id mark :: log) = held key log := if_neg h

theorem held_stop_ne (h : key ≠ key') : held key (stop key' :: log) = held key log := if_neg h

/-- Keys that are given up one after the other. -/
theorem held_stops (keys : List α) (log : List (Lease α κ τ)) :
    held key (keys.map stop ++ log) = if key ∈ keys then none else held key log := by
  induction keys with
  | nil => rfl
  | cons key' keys ih =>
    rw [List.map_cons, List.cons_append]
    by_cases hkey : key = key'
    · rw [if_pos (List.mem_cons.mpr (.inl hkey)), hkey]
      exact held_stop_self
    · rw [held_stop_ne hkey, ih]
      simp only [List.mem_cons, hkey, false_or]

theorem lawful_stops (keys : List α) : Lawful (keys.map stop ++ log) ↔ Lawful log := by
  induction keys with
  | nil => exact .rfl
  | cons key keys ih => exact ih

omit [DecidableEq α] in
theorem use_mem_stops (keys : List α) : use key id mark ∈ keys.map stop ++ log ↔ use key id mark ∈ log := by
  simp

theorem allowed_of_held (h : held key log = some (id, mark)) : Allowed key id log := by
  rw [Allowed, h]

theorem allowed_of_fresh (h : held key log = none) (hfresh : ∀ key' mark, use key' id mark ∉ log) :
    Allowed key id log := by
  rw [Allowed, h]
  exact hfresh

/-- What a key holds was used for it, and the key has not been used or given up since. -/
theorem exists_use_of_held (h : held key log = some (id, mark)) :
    ∃ newer older, log = newer ++ use key id mark :: older ∧ stop key ∉ newer ∧
      ∀ id' mark', use key id' mark' ∉ newer := by
  induction log with
  | nil => cases h
  | cons event log ih =>
    cases event with
    | use key' id' mark' =>
      by_cases hkey : key = key'
      · subst hkey
        rw [held_use_self] at h
        cases h
        exact ⟨[], log, rfl, List.not_mem_nil, fun _ _ => List.not_mem_nil⟩
      · rw [held_use_ne hkey] at h
        obtain ⟨newer, older, rfl, hstop, huse⟩ := ih h
        refine ⟨use key' id' mark' :: newer, older, rfl, ?_, ?_⟩
        · simpa using hstop
        · intro id'' mark''
          simpa [hkey] using huse id'' mark''
    | stop key' =>
      by_cases hkey : key = key'
      · subst hkey
        rw [held_stop_self] at h
        cases h
      · rw [held_stop_ne hkey] at h
        obtain ⟨newer, older, rfl, hstop, huse⟩ := ih h
        refine ⟨stop key' :: newer, older, rfl, ?_, ?_⟩
        · simpa [hkey] using hstop
        · intro id'' mark''
          simpa using huse id'' mark''

theorem mem_of_held (h : held key log = some (id, mark)) : use key id mark ∈ log := by
  obtain ⟨newer, older, rfl, -, -⟩ := exists_use_of_held h
  exact List.mem_append_right _ List.mem_cons_self

/-- In a lawful history no two keys hold one identifier. -/
theorem Lawful.held_inj (h : Lawful log) (hheld : held key log = some (id, mark))
    (hheld' : held key' log = some (id, mark')) : key = key' := by
  induction log generalizing key key' id mark mark' with
  | nil => cases hheld
  | cons event log ih =>
    cases event with
    | use key₀ id₀ mark₀ =>
      have hclash : ∀ {key₁ mark₁}, held key₁ log = some (id₀, mark₁) → key₁ = key₀ := by
        intro key₁ mark₁ h₁
        have hallowed := h.1
        unfold Allowed at hallowed
        split at hallowed
        next h₀ =>
          subst hallowed
          exact ih h.2 h₁ h₀
        · exact absurd (mem_of_held h₁) (hallowed key₁ mark₁)
      by_cases hkey : key = key₀ <;> by_cases hkey' : key' = key₀
      · exact hkey.trans hkey'.symm
      · subst hkey
        rw [held_use_self] at hheld
        rw [held_use_ne hkey'] at hheld'
        cases hheld
        exact (hclash hheld').symm
      · subst hkey'
        rw [held_use_self] at hheld'
        rw [held_use_ne hkey] at hheld
        cases hheld'
        exact hclash hheld
      · rw [held_use_ne hkey] at hheld
        rw [held_use_ne hkey'] at hheld'
        exact ih h.2 hheld hheld'
    | stop key₀ =>
      by_cases hkey : key = key₀
      · subst hkey
        rw [held_stop_self] at hheld
        cases hheld
      by_cases hkey' : key' = key₀
      · subst hkey'
        rw [held_stop_self] at hheld'
        cases hheld'
      rw [held_stop_ne hkey] at hheld
      rw [held_stop_ne hkey'] at hheld'
      exact ih h hheld hheld'

/-- What has become of a use: its key still holds the identifier, or was given up and no key does. -/
theorem Lawful.since (h : Lawful (between ++ use key id mark :: older)) :
    (stop key ∉ between ∧ ∃ mark', held key (between ++ use key id mark :: older) = some (id, mark')) ∨
      (stop key ∈ between ∧
        ∀ key' mark', held key' (between ++ use key id mark :: older) ≠ some (id, mark')) := by
  induction between with
  | nil => exact .inl ⟨List.not_mem_nil, mark, held_use_self⟩
  | cons event between ih =>
    have hused : use key id mark ∈ between ++ use key id mark :: older :=
      List.mem_append_right _ List.mem_cons_self
    rw [List.cons_append] at h ⊢
    cases event with
    | use key₀ id₀ mark₀ =>
      have hstop : stop key ∈ use key₀ id₀ mark₀ :: between ↔ stop key ∈ between := by simp
      rw [hstop]
      have hallowed := h.1
      unfold Allowed at hallowed
      rcases ih h.2 with ⟨hno, mark', hheld⟩ | ⟨hyes, hnone⟩
      · refine .inl ⟨hno, ?_⟩
        by_cases hkey : key = key₀
        · subst hkey
          rw [hheld] at hallowed
          exact ⟨mark₀, by rw [held_use_self, hallowed]⟩
        · exact ⟨mark', (held_use_ne hkey).trans hheld⟩
      · refine .inr ⟨hyes, ?_⟩
        intro key' mark'
        by_cases hkey : key' = key₀
        · subst hkey
          rw [held_use_self]
          rintro ⟨⟩
          split at hallowed
          next h₀ =>
            subst hallowed
            exact hnone _ _ h₀
          · exact hallowed _ _ hused
        · rw [held_use_ne hkey]
          exact hnone key' mark'
    | stop key₀ =>
      have hlawful : Lawful (between ++ use key id mark :: older) := h
      by_cases hkey : key = key₀
      · subst hkey
        refine .inr ⟨List.mem_cons_self, ?_⟩
        intro key' mark'
        by_cases hkey' : key' = key
        · subst hkey'
          rw [held_stop_self]
          nofun
        · rw [held_stop_ne hkey']
          intro hheld'
          rcases ih h with ⟨-, mark'', hheld⟩ | ⟨-, hnone⟩
          · exact hkey' (hlawful.held_inj hheld' hheld)
          · exact hnone key' mark' hheld'
      · have hstop : stop key ∈ stop key₀ :: between ↔ stop key ∈ between := by simp [hkey]
        rw [hstop, held_stop_ne hkey]
        rcases ih h with ⟨hno, hheld⟩ | ⟨hyes, hnone⟩
        · exact .inl ⟨hno, hheld⟩
        · refine .inr ⟨hyes, ?_⟩
          intro key' mark'
          by_cases hkey' : key' = key₀
          · subst hkey'
            rw [held_stop_self]
            nofun
          · rw [held_stop_ne hkey']
            exact hnone key' mark'

theorem Lawful.of_append (h : Lawful (newer ++ log)) : Lawful log := by
  induction newer with
  | nil => exact h
  | cons event newer ih =>
    cases event with
    | use key id mark => exact ih h.2
    | stop key => exact ih h

/-- **One identifier, one lease**: in a lawful history two uses are under the same identifier exactly when
they are of the same key and it was not given up in between. -/
theorem Lawful.same_iff
    (h : Lawful (newer ++ use key' id' mark' :: (between ++ use key id mark :: older))) :
    id' = id ↔ key' = key ∧ stop key ∉ between := by
  obtain ⟨hallowed, hlawful⟩ := h.of_append
  have hused : use key id mark ∈ between ++ use key id mark :: older :=
    List.mem_append_right _ List.mem_cons_self
  unfold Allowed at hallowed
  rcases hlawful.since with ⟨hno, mark'', hheld⟩ | ⟨hyes, hnone⟩
  · constructor
    · rintro rfl
      refine ⟨?_, hno⟩
      split at hallowed
      next h₀ =>
        subst hallowed
        exact hlawful.held_inj h₀ hheld
      · exact absurd hused (hallowed key mark)
    · rintro ⟨rfl, -⟩
      rw [hheld] at hallowed
      exact hallowed
  · constructor
    · rintro rfl
      split at hallowed
      next h₀ =>
        subst hallowed
        exact absurd h₀ (hnone _ _)
      · exact absurd hused (hallowed key mark)
    · rintro ⟨-, hno⟩
      exact absurd hyes hno

end Lease

end Library
