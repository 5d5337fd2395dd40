import Mathlib.Data.List.Nodup

/-!
# A mutex that hands itself over

An asynchronous mutex with a first-in first-out queue: a task that asks for it owns it at once or
joins the queue, and the owner's unlock makes the head of the queue the owner. `members` are the
owner and the tasks that wait. `WellFormed` says that nobody waits for a free mutex and that no task
is there twice; `lock` and `unlock` keep it.
-/

namespace Library

/-- A fair mutex: its owner and the tasks that wait for it. -/
structure FairMutex (ι : Type*) where
  owner : Option ι := none
  queue : List ι := []
  deriving DecidableEq, Repr

namespace FairMutex

variable {ι : Type*} {m : FairMutex ι} {i j : ι}

/-- A task asks for the mutex. -/
def lock (m : FairMutex ι) (i : ι) : FairMutex ι :=
  match m.owner with
  | none => { m with owner := some i }
  | some _ => { m with queue := m.queue ++ [i] }

/-- The owner releases the mutex. -/
def unlock (m : FairMutex ι) : FairMutex ι := ⟨m.queue.head?, m.queue.tail⟩

/-- A task gives up: it leaves the queue, or releases what it owns. -/
def cancel [DecidableEq ι] (m : FairMutex ι) (i : ι) : FairMutex ι :=
  if m.owner = some i then m.unlock else { m with queue := m.queue.filter (· ≠ i) }

/-- The owner and the tasks that wait. -/
def members (m : FairMutex ι) : List ι := m.owner.toList ++ m.queue

/-- Nobody waits for a free mutex, and no task is there twice. -/
structure WellFormed (m : FairMutex ι) : Prop where
  free : m.owner = none → m.queue = []
  nodup : m.members.Nodup

theorem wellFormed_free : WellFormed (⟨none, []⟩ : FairMutex ι) := ⟨fun _ => rfl, List.nodup_nil⟩

theorem mem_of_owner (h : m.owner = some i) : i ∈ m.members := by
  rw [members, h]
  exact List.mem_append_left _ (List.mem_singleton_self i)

theorem members_lock (h : m.WellFormed) : (m.lock i).members = m.members ++ [i] := by
  unfold lock members
  cases howner : m.owner with
  | none =>
    simp only [h.free howner, Option.toList_some, Option.toList_none, List.nil_append,
      List.append_nil]
  | some o => simp only [Option.toList_some, List.append_assoc]

theorem mem_lock (h : m.WellFormed) : j ∈ (m.lock i).members ↔ j ∈ m.members ∨ j = i := by
  rw [members_lock h, List.mem_append, List.mem_singleton]

theorem WellFormed.lock (h : m.WellFormed) (hi : i ∉ m.members) : (m.lock i).WellFormed := by
  refine ⟨?_, ?_⟩
  · intro hfree
    unfold FairMutex.lock at hfree
    cases howner : m.owner with
    | none => rw [howner] at hfree; cases hfree
    | some o => rw [howner] at hfree; cases hfree
  · rw [members_lock h]
    exact List.nodup_append.mpr ⟨h.nodup, List.nodup_singleton i, fun a ha b hb hab =>
      hi (by rw [← List.mem_singleton.mp hb, ← hab]; exact ha)⟩

/-- The owner stays the owner when another task asks. -/
theorem owner_lock (h : m.owner = some j) : (m.lock i).owner = some j := by
  rw [lock, h]

theorem members_unlock (h : m.owner = some i) : m.members = i :: m.unlock.members := by
  unfold members unlock
  rw [h]
  cases m.queue <;> rfl

theorem mem_unlock (hm : m.WellFormed) (h : m.owner = some i) :
    j ∈ m.unlock.members ↔ j ∈ m.members ∧ j ≠ i := by
  have hnodup := hm.nodup
  rw [members_unlock h] at hnodup ⊢
  obtain ⟨hi, -⟩ := List.nodup_cons.mp hnodup
  rw [List.mem_cons]
  constructor
  · intro hj
    exact ⟨.inr hj, fun heq => hi (heq ▸ hj)⟩
  · rintro ⟨hj | hj, hne⟩
    · exact absurd hj hne
    · exact hj

theorem WellFormed.unlock (hm : m.WellFormed) (h : m.owner = some i) : m.unlock.WellFormed := by
  have hnodup := hm.nodup
  rw [members_unlock h] at hnodup
  refine ⟨?_, (List.nodup_cons.mp hnodup).2⟩
  intro hfree
  unfold FairMutex.unlock at hfree ⊢
  cases hqueue : m.queue with
  | nil => rfl
  | cons q queue => rw [hqueue] at hfree; cases hfree

section Cancel

variable [DecidableEq ι]

theorem mem_cancel (hm : m.WellFormed) : j ∈ (m.cancel i).members ↔ j ∈ m.members ∧ j ≠ i := by
  unfold cancel
  split
  next howner => exact mem_unlock hm howner
  next howner =>
    simp only [members, List.mem_append, Option.mem_toList, List.mem_filter, decide_eq_true_iff]
    constructor
    · rintro (hj | ⟨hj, hne⟩)
      · exact ⟨.inl hj, fun heq => howner (heq ▸ hj)⟩
      · exact ⟨.inr hj, hne⟩
    · rintro ⟨hj | hj, hne⟩
      · exact .inl hj
      · exact .inr ⟨hj, hne⟩

theorem WellFormed.cancel (hm : m.WellFormed) (i : ι) : (m.cancel i).WellFormed := by
  unfold FairMutex.cancel
  split
  next howner => exact hm.unlock howner
  next howner =>
    refine ⟨?_, hm.nodup.sublist (List.Sublist.append_left List.filter_sublist _)⟩
    intro hfree
    show m.queue.filter _ = []
    rw [hm.free hfree]
    rfl

/-- The owner stays the owner when another task gives up. -/
theorem owner_cancel (h : m.owner = some j) (hne : j ≠ i) : (m.cancel i).owner = some j := by
  rw [cancel, if_neg (fun howner => hne (Option.some.inj (h.symm.trans howner)))]
  exact h

/-- The owner that gives up hands the mutex over. -/
theorem length_cancel (h : m.owner = some i) :
    m.members.length = (m.cancel i).members.length + 1 := by
  rw [cancel, if_pos h, members_unlock h, List.length_cons]

end Cancel

/-- A mutex that some task owns or waits for has an owner. -/
theorem exists_owner (hm : m.WellFormed) (h : i ∈ m.members) : ∃ o, m.owner = some o := by
  cases howner : m.owner with
  | none =>
    rw [members, howner, hm.free howner] at h
    cases h
  | some o => exact ⟨o, rfl⟩

/-- A mutex that no task owns or waits for is as it was made. -/
theorem eq_free (h : ∀ i, i ∉ m.members) : m = ⟨none, []⟩ := by
  obtain ⟨owner, queue⟩ := m
  cases owner with
  | some o => exact absurd (mem_of_owner rfl) (h o)
  | none =>
    cases queue with
    | nil => rfl
    | cons q queue => exact absurd (List.mem_cons_self : q ∈ q :: queue) (h q)

end FairMutex

end Library
