import Mathlib.Logic.Function.Basic
import Mathlib.Data.List.Basic

/-!
# Runs of step functions

Two shapes of machine recur in a model of an event-driven program.

* A **partial machine** `step : σ → α → Option σ` says which labelled step is enabled in a state and
  where it leads. `exec` runs a list of labels; `Meets` says that every step of the run meets a
  condition on the state before it and its label. `exec_invariant` is the induction over runs: an
  invariant kept by every step that meets the condition holds after every run whose steps all do.
* A **feeding machine** `step : σ → α → σ × List ε` consumes inputs and emits outputs. `feedAll`
  runs a list of inputs. A **keyed** machine (`keyed`) holds one such machine per key and routes
  each input to the machine of its key. The three laws of `keyed` say that interleaving is
  invisible: the state of a key (`feedAll_keyed_state`), the outputs that belong to a key
  (`feedAll_keyed_proj`) and every single output (`mem_feedAll_keyed`) are those of the machine of
  one key, run on the inputs of that key alone.
-/

namespace Library

/-! ## Partial machines -/

section Partial

variable {σ α : Type*} (step : σ → α → Option σ)

/-- Run a list of labels; `none` if one of them is not enabled. -/
def exec : σ → List α → Option σ
  | s, [] => some s
  | s, a :: as => (step s a).bind (exec · as)

/-- Every step of the run from `s` meets `C`, at the state before it. -/
def Meets (C : σ → α → Prop) : σ → List α → Prop
  | _, [] => True
  | s, a :: as => C s a ∧ ∀ t, step s a = some t → Meets C t as

variable {step}

@[simp] theorem exec_nil (s : σ) : exec step s [] = some s := rfl

@[simp] theorem exec_cons (s : σ) (a : α) (as : List α) :
    exec step s (a :: as) = (step s a).bind (exec step · as) := rfl

/-- A run of a concatenation is a run of the first part and then of the second. -/
theorem exec_append (s : σ) (as bs : List α) :
    exec step s (as ++ bs) = (exec step s as).bind (exec step · bs) := by
  induction as generalizing s with
  | nil => rfl
  | cons a as ih =>
    rw [List.cons_append, exec_cons, exec_cons, Option.bind_assoc]
    exact congrArg (step s a).bind (funext fun t => ih t)

/-- The first step of a nonempty run. -/
theorem exec_cons_eq_some {s u : σ} {a : α} {as : List α}
    (h : exec step s (a :: as) = some u) :
    ∃ t, step s a = some t ∧ exec step t as = some u :=
  Option.bind_eq_some_iff.mp h

/-- A condition met by a step and along the run after it. -/
theorem Meets.cons {C : σ → α → Prop} {s t : σ} {a : α} {as : List α} (hstep : step s a = some t)
    (h : C s a) (hrest : Meets step C t as) : Meets step C s (a :: as) := by
  refine ⟨h, ?_⟩
  intro u hu
  cases hstep.symm.trans hu
  exact hrest

/-- Two conditions met along the same run. -/
theorem Meets.and {C D : σ → α → Prop} {s : σ} {as : List α} (hC : Meets step C s as)
    (hD : Meets step D s as) : Meets step (fun s a => C s a ∧ D s a) s as := by
  induction as generalizing s with
  | nil => trivial
  | cons a as ih => exact ⟨⟨hC.1, hD.1⟩, fun t ht => ih (hC.2 t ht) (hD.2 t ht)⟩

/-- A condition met along a run is met along its beginning. -/
theorem Meets.of_append {C : σ → α → Prop} {s : σ} {as bs : List α}
    (h : Meets step C s (as ++ bs)) : Meets step C s as := by
  induction as generalizing s with
  | nil => trivial
  | cons a as ih => exact ⟨h.1, fun t ht => ih (h.2 t ht)⟩

/-- A condition met along a run, and along another from where it leads, is met along both. -/
theorem Meets.append {C : σ → α → Prop} {s : σ} {as bs : List α} (h : Meets step C s as)
    (hrest : ∀ t, exec step s as = some t → Meets step C t bs) : Meets step C s (as ++ bs) := by
  induction as generalizing s with
  | nil => exact hrest s rfl
  | cons a as ih =>
    refine ⟨h.1, fun t ht => ih (h.2 t ht) fun u hu => hrest u ?_⟩
    rw [exec_cons, ht]
    exact hu

/-- A condition that holds of each label in any state is met along the run. -/
theorem Meets.of_mem {C : σ → α → Prop} {as : List α} (h : ∀ a ∈ as, ∀ s, C s a) (s : σ) :
    Meets step C s as := by
  induction as generalizing s with
  | nil => trivial
  | cons a as ih =>
    obtain ⟨ha, has⟩ := List.forall_mem_cons.mp h
    exact ⟨ha s, fun t _ => ih has t⟩

/-- **The induction over runs**: an invariant that every step meeting `C` keeps holds after every
run whose steps all meet `C`. -/
theorem exec_invariant {C : σ → α → Prop} {P : σ → Prop}
    (keep : ∀ s a t, P s → C s a → step s a = some t → P t) {s t : σ} {as : List α}
    (run : exec step s as = some t) (meets : Meets step C s as) (init : P s) : P t := by
  induction as generalizing s with
  | nil => cases run; exact init
  | cons a as ih =>
    obtain ⟨u, hu, hrest⟩ := exec_cons_eq_some run
    exact ih hrest (meets.2 u hu) (keep s a u init meets.1 hu)

/-- The induction over runs with a condition on the labels. -/
theorem exec_invariant_of_mem {C : α → Prop} {P : σ → Prop}
    (keep : ∀ s a t, P s → C a → step s a = some t → P t) {s t : σ} {as : List α}
    (run : exec step s as = some t) (labels : ∀ a ∈ as, C a) (init : P s) : P t :=
  exec_invariant keep run (Meets.of_mem (fun a ha _ => labels a ha) s) init

/-- The induction over runs with no condition on the steps. -/
theorem exec_invariant' {P : σ → Prop} (keep : ∀ s a t, P s → step s a = some t → P t)
    {s t : σ} {as : List α} (run : exec step s as = some t) (init : P s) : P t :=
  exec_invariant_of_mem (C := fun _ => True) (fun s a t hp _ hs => keep s a t hp hs) run
    (fun _ _ => trivial) init

/-- The induction over runs of an invariant that speaks of the labels so far. -/
theorem exec_history {P : List α → σ → Prop}
    (keep : ∀ as s a t, P as s → step s a = some t → P (as ++ [a]) t) {s t : σ} {pre as : List α}
    (run : exec step s as = some t) (init : P pre s) : P (pre ++ as) t := by
  induction as generalizing s pre with
  | nil =>
    cases run
    rwa [List.append_nil]
  | cons a as ih =>
    obtain ⟨u, hu, hrest⟩ := exec_cons_eq_some run
    rw [List.append_cons]
    exact ih hrest (keep pre s a u init hu)

end Partial

/-! ## Logs -/

/-- Where an event stands in a log is where it stood before other events were added at the front. -/
theorem exists_split_of_append {ε : Type*} {events log newer older : List ε} {e : ε}
    (h : events ++ log = newer ++ e :: older) (he : e ∉ events) : ∃ rest, log = rest ++ e :: older := by
  rcases List.append_eq_append_iff.mp h with ⟨rest, -, hlog⟩ | ⟨rest, hevents, hlog⟩
  · exact ⟨rest, hlog⟩
  · cases rest with
    | nil => exact ⟨[], hlog.symm⟩
    | cons e' rest =>
      cases hlog
      refine absurd ?_ he
      rw [hevents]
      exact List.mem_append_right _ List.mem_cons_self

/-! ## Feeding machines -/

section Feeding

variable {σ α ε κ δ : Type*}

/-- Feed a list of inputs, collecting the outputs in order. -/
def feedAll (step : σ → α → σ × List ε) : σ → List α → σ × List ε
  | s, [] => (s, [])
  | s, a :: as =>
    ((feedAll step (step s a).1 as).1, (step s a).2 ++ (feedAll step (step s a).1 as).2)

variable {step : σ → α → σ × List ε}

@[simp] theorem feedAll_nil (s : σ) : feedAll step s [] = (s, []) := rfl

/-- Feeding one more input at the front. -/
theorem feedAll_cons (s : σ) (a : α) (as : List α) :
    feedAll step s (a :: as) =
      ((feedAll step (step s a).1 as).1, (step s a).2 ++ (feedAll step (step s a).1 as).2) := rfl

/-- Feeding a concatenation is feeding the first part and then the second. -/
theorem feedAll_append (s : σ) (as bs : List α) :
    feedAll step s (as ++ bs) =
      ((feedAll step (feedAll step s as).1 bs).1,
        (feedAll step s as).2 ++ (feedAll step (feedAll step s as).1 bs).2) := by
  induction as generalizing s with
  | nil => rfl
  | cons a as ih =>
    rw [List.cons_append, feedAll_cons, ih, feedAll_cons, List.append_assoc]

/-- Feeding translated inputs. -/
theorem feedAll_map {β : Type*} (f : β → α) (s : σ) (bs : List β) :
    feedAll step s (bs.map f) = feedAll (fun s b => step s (f b)) s bs := by
  induction bs generalizing s with
  | nil => rfl
  | cons b bs ih => rw [List.map_cons, feedAll_cons, feedAll_cons, ih]

/-- An invariant kept by every input holds after every list of inputs. -/
theorem feedAll_invariant {P : σ → Prop} (keep : ∀ s a, P s → P (step s a).1) {s : σ}
    (as : List α) (init : P s) : P (feedAll step s as).1 := by
  induction as generalizing s with
  | nil => exact init
  | cons a as ih => exact ih (keep s a init)

/-- What every input emits, in a state of the invariant, every list of inputs emits. -/
theorem feedAll_outputs {inv : σ → Prop} {P : ε → Prop}
    (one : ∀ s a, inv s → inv (step s a).1 ∧ ∀ x ∈ (step s a).2, P x) (as : List α) {s : σ}
    (hs : inv s) : ∀ x ∈ (feedAll step s as).2, P x := by
  induction as generalizing s with
  | nil =>
    intro x hx
    cases hx
  | cons a as ih =>
    intro x hx
    obtain ⟨hnext, hone⟩ := one s a hs
    rcases List.mem_append.mp hx with hx | hx
    · exact hone x hx
    · exact ih hnext x hx

variable [DecidableEq κ]

/-- One machine per key: an input goes to the machine of its key. -/
def keyed (key : α → κ) (step : σ → α → σ × List ε) (m : κ → σ) (a : α) : (κ → σ) × List ε :=
  (Function.update m (key a) (step (m (key a)) a).1, (step (m (key a)) a).2)

variable {key : α → κ}

/-- The state of a key is that of its machine on the inputs of the key alone. -/
theorem feedAll_keyed_state (m : κ → σ) (as : List α) (k : κ) :
    (feedAll (keyed key step) m as).1 k =
      (feedAll step (m k) (as.filter (key · = k))).1 := by
  induction as generalizing m with
  | nil => rfl
  | cons a as ih =>
    rw [feedAll_cons, ih]
    by_cases h : key a = k
    · subst h
      simp only [keyed, Function.update_self, List.filter_cons, decide_true, ↓reduceIte,
        feedAll_cons]
    · simp only [keyed, Function.update_of_ne (Ne.symm h), List.filter_cons, h, decide_false,
        Bool.false_eq_true, ↓reduceIte]

/-- The outputs that belong to a key are those of its machine on the inputs of the key alone, when
no other key's input emits an output that belongs to it. -/
theorem feedAll_keyed_proj {proj : ε → Option δ} {k : κ}
    (other : ∀ s a x, key a ≠ k → x ∈ (step s a).2 → proj x = none) (m : κ → σ) (as : List α) :
    (feedAll (keyed key step) m as).2.filterMap proj =
      (feedAll step (m k) (as.filter (key · = k))).2.filterMap proj := by
  induction as generalizing m with
  | nil => rfl
  | cons a as ih =>
    rw [feedAll_cons, List.filterMap_append, ih]
    by_cases h : key a = k
    · subst h
      simp only [keyed, Function.update_self, List.filter_cons, decide_true, ↓reduceIte,
        feedAll_cons, List.filterMap_append]
    · have silent : (keyed key step m a).2.filterMap proj = [] :=
        List.filterMap_eq_nil_iff.mpr fun x hx => other _ a x h hx
      rw [silent, List.nil_append]
      simp only [keyed, Function.update_of_ne (Ne.symm h), List.filter_cons, h, decide_false,
        Bool.false_eq_true, ↓reduceIte]

/-- When every input belongs to one key, the outputs are those of its machine. -/
theorem feedAll_keyed_one (m : κ → σ) {as : List α} {k : κ} (h : ∀ a ∈ as, key a = k) :
    (feedAll (keyed key step) m as).2 = (feedAll step (m k) as).2 := by
  induction as generalizing m with
  | nil => rfl
  | cons a as ih =>
    obtain rfl := h a List.mem_cons_self
    rw [feedAll_cons, ih _ fun b hb => h b (List.mem_cons_of_mem _ hb), feedAll_cons]
    simp only [keyed, Function.update_self]

/-- Every output is an output of one key's machine on the inputs of that key alone. -/
theorem mem_feedAll_keyed {m : κ → σ} {as : List α} {x : ε}
    (hx : x ∈ (feedAll (keyed key step) m as).2) :
    ∃ k, x ∈ (feedAll step (m k) (as.filter (key · = k))).2 := by
  induction as generalizing m with
  | nil => cases hx
  | cons a as ih =>
    rw [feedAll_cons] at hx
    rcases List.mem_append.mp hx with here | later
    · refine ⟨key a, ?_⟩
      rw [List.filter_cons, if_pos (decide_eq_true rfl), feedAll_cons]
      exact List.mem_append_left _ here
    · obtain ⟨k, hk⟩ := ih later
      refine ⟨k, ?_⟩
      by_cases h : key a = k
      · subst h
        simp only [keyed, Function.update_self] at hk
        rw [List.filter_cons, if_pos (decide_eq_true rfl), feedAll_cons]
        exact List.mem_append_right _ hk
      · simp only [keyed, Function.update_of_ne (Ne.symm h)] at hk
        rwa [List.filter_cons, if_neg (by simp only [h, decide_false, Bool.false_eq_true,
          not_false_eq_true])]

end Feeding

end Library
