import Mathlib.Data.List.Basic
import Mathlib.Data.List.Induction
import Mathlib.Data.List.Nodup

/-!
# Linearizability

A history is what the clients of a shared object see: calls and their returns, in the order in which
they happen. It is **linearizable** when the calls can be put in an order, each with a result, such that

* every call that has returned is there with the result it returned, and a call that has not may be
  there or not (`Linearization.complete`),
* the object, asked one call after the other, gives these results (`Linearization.legal`),
* a call that returned before another was made comes before it (`Linearization.realTime`).

A system is shown to be so by **linearization points**: `Traced` is a history together with the calls
that have taken effect so far. Each takes effect once, between its call and its return, and returns the
result of its effect; `Traced.linearization` says that the order of the effects is a linearization.
-/

namespace Library

open scoped List

variable {ι ο ρ σ τ : Type*}

/-- Two elements follow each other in a list with one more at its end when they did so before, or the
second is the new one. -/
theorem pair_sublist_concat {α : Type*} {a b c : α} {l : List α} :
    [a, b] <+ l ++ [c] ↔ [a, b] <+ l ∨ a ∈ l ∧ b = c := by
  constructor
  · intro h
    obtain ⟨first, second, hsplit, hfirst, hsecond⟩ := List.sublist_append_iff.mp h
    rcases first with _ | ⟨x, _ | ⟨y, rest⟩⟩
    · rw [List.nil_append] at hsplit
      rw [← hsplit] at hsecond
      have hlen := hsecond.length_le
      rw [List.length_cons, List.length_singleton, List.length_singleton] at hlen
      omega
    · obtain ⟨rfl, hb⟩ := List.cons.inj hsplit
      have hb : [b] = second := hb
      rw [← hb] at hsecond
      exact .inr ⟨List.singleton_sublist.mp hfirst,
        List.mem_singleton.mp (List.singleton_sublist.mp hsecond)⟩
    · obtain ⟨rfl, htail⟩ := List.cons.inj hsplit
      obtain ⟨rfl, hrest⟩ := List.cons.inj htail
      have hnil : rest = [] := (List.append_eq_nil_iff.mp hrest.symm).1
      rw [hnil] at hfirst
      exact .inl hfirst
  · rintro (h | ⟨ha, rfl⟩)
    · exact h.trans (List.sublist_append_left _ _)
    · exact (List.singleton_sublist.mpr ha).append (List.Sublist.refl [b])

/-- Two elements of a list without duplicates follow each other one way only. -/
theorem pair_sublist_asymm {α : Type*} {a b : α} {l : List α} (hnodup : l.Nodup) (h : [a, b] <+ l) :
    ¬ [b, a] <+ l := by
  intro h'
  obtain ⟨first, second, rfl, ha, hb⟩ := List.cons_sublist_iff.mp h
  obtain ⟨first', second', hsplit, hb', ha'⟩ := List.cons_sublist_iff.mp h'
  have ha' : a ∈ second' := List.singleton_sublist.mp ha'
  have hb : b ∈ second := List.singleton_sublist.mp hb
  have hdisjoint := (List.nodup_append.mp hnodup).2.2
  rcases List.append_eq_append_iff.mp hsplit with ⟨rest, -, rfl⟩ | ⟨rest, rfl, -⟩
  · exact hdisjoint a ha a (List.mem_append_right _ ha') rfl
  · exact hdisjoint b (List.mem_append_left _ hb') b hb rfl

/-- An event of a history: `call i op` is a call of `op` numbered `i`, `ret i r` is its return. -/
inductive Event (ι ο ρ : Type*) where
  | call (i : ι) (op : ο)
  | ret (i : ι) (r : ρ)

/-- A call that takes effect, with its result. -/
structure Effect (ι ο ρ : Type*) where
  id : ι
  op : ο
  result : ρ

/-- The object goes from one state to another by the effects, one after the other. -/
inductive Executes (spec : σ → ο → ρ → σ → Prop) : σ → List (Effect ι ο ρ) → σ → Prop
  | nil (s : σ) : Executes spec s [] s
  | concat {s t u : σ} {effects : List (Effect ι ο ρ)} {e : Effect ι ο ρ}
    (before : Executes spec s effects t) (last : spec t e.op e.result u) :
    Executes spec s (effects ++ [e]) u

namespace Executes

variable {spec : σ → ο → ρ → σ → Prop} {s u : σ}

/-- No effect leaves the state. -/
theorem eq_of_nil (h : Executes spec s ([] : List (Effect ι ο ρ)) u) : s = u := by
  generalize heffects : ([] : List (Effect ι ο ρ)) = effects at h
  cases h with
  | nil => rfl
  | concat before last => exact absurd heffects.symm (List.concat_ne_nil _ _)

/-- The last effect of an execution. -/
theorem last {effects : List (Effect ι ο ρ)} {e : Effect ι ο ρ}
    (h : Executes spec s (effects ++ [e]) u) :
    ∃ t, Executes spec s effects t ∧ spec t e.op e.result u := by
  generalize hall : effects ++ [e] = all at h
  cases h with
  | nil => exact absurd hall (List.concat_ne_nil e effects)
  | concat before last =>
    obtain ⟨rfl, heq⟩ := List.append_inj' hall rfl
    cases heq
    exact ⟨_, before, last⟩

/-- An execution of two lists of effects is one of the first and one of the second. -/
theorem split {first second : List (Effect ι ο ρ)} (h : Executes spec s (first ++ second) u) :
    ∃ t, Executes spec s first t ∧ Executes spec t second u := by
  induction second using List.reverseRecOn generalizing u with
  | nil => exact ⟨u, by rwa [List.append_nil] at h, .nil u⟩
  | append_singleton second e ih =>
    rw [← List.append_assoc] at h
    obtain ⟨v, hbefore, hlast⟩ := h.last
    obtain ⟨t, hfirst, hsecond⟩ := ih hbefore
    exact ⟨t, hfirst, hsecond.concat hlast⟩

/-- The first effect of an execution. -/
theorem first {e : Effect ι ο ρ} {effects : List (Effect ι ο ρ)}
    (h : Executes spec s (e :: effects) u) :
    ∃ t, spec s e.op e.result t ∧ Executes spec t effects u := by
  have hsplit : Executes spec s ([e] ++ effects) u := h
  obtain ⟨t, hone, hrest⟩ := hsplit.split
  have hlast : Executes spec s ([] ++ [e]) t := hone
  obtain ⟨v, hnil, hstep⟩ := hlast.last
  rw [← hnil.eq_of_nil] at hstep
  exact ⟨t, hstep, hrest⟩

/-- What every effect keeps, an execution keeps. -/
theorem invariant {effects : List (Effect ι ο ρ)} (h : Executes spec s effects u) {P : σ → Prop}
    (keep : ∀ e ∈ effects, ∀ t v, P t → spec t e.op e.result v → P v) (init : P s) : P u := by
  induction h with
  | nil => exact init
  | concat before last ih =>
    exact keep _ (List.mem_append_right _ (List.mem_singleton_self _)) _ _
      (ih fun e he => keep e (List.mem_append_left _ he)) last

end Executes

/-- An order of the calls of a history that explains it. -/
structure Linearization (spec : σ → ο → ρ → σ → Prop) (init : σ) (history : List (Event ι ο ρ))
    (order : List (Effect ι ο ρ)) : Prop where
  /-- No call is there twice. -/
  once : (order.map (·.id)).Nodup
  /-- Only calls that were made are there. -/
  called : ∀ e ∈ order, .call e.id e.op ∈ history
  /-- A call that has returned is there with its result. -/
  complete : ∀ i r, .ret i r ∈ history → ∃ e ∈ order, e.id = i ∧ e.result = r
  legal : ∃ final, Executes spec init order final
  realTime : ∀ i r j op, [.ret i r, .call j op] <+ history → j ∈ order.map (·.id) →
    [i, j] <+ order.map (·.id)

/-- Two calls of an order, one before the other, and those between them. -/
theorem Linearization.between {spec : σ → ο → ρ → σ → Prop} {init : σ} {history : List (Event ι ο ρ)}
    {order : List (Effect ι ο ρ)} (h : Linearization spec init history order) {i j : ι}
    (hij : [i, j] <+ order.map (·.id)) : ∃ before e middle e' after,
      order = before ++ e :: (middle ++ e' :: after) ∧ e.id = i ∧ e'.id = j ∧
        ∀ f ∈ middle, f.id ≠ i ∧ ¬ [f.id, i] <+ order.map (·.id) := by
  obtain ⟨pair, hpair, hids⟩ := List.sublist_map_iff.mp hij
  obtain ⟨e, rest, rfl, rfl, hrest⟩ := List.map_eq_cons_iff.mp hids.symm
  obtain ⟨e', rest', rfl, rfl, hrest'⟩ := List.map_eq_cons_iff.mp hrest
  obtain rfl := List.map_eq_nil_iff.mp hrest'
  obtain ⟨first, second, rfl, he, hsecond⟩ := List.cons_sublist_iff.mp hpair
  obtain ⟨before, middle, rfl⟩ := List.append_of_mem he
  obtain ⟨middle', after, rfl⟩ := List.append_of_mem (List.singleton_sublist.mp hsecond)
  have horder : before ++ e :: middle ++ (middle' ++ e' :: after) =
      before ++ e :: (middle ++ middle' ++ e' :: after) := by simp
  refine ⟨before, e, middle ++ middle', e', after, horder, rfl, rfl, ?_⟩
  intro f hf
  have hnodup := h.once
  rw [horder] at hnodup ⊢
  have hlate : [e.id, f.id] <+ (before ++ e :: (middle ++ middle' ++ e' :: after)).map (·.id) := by
    have hpair : [e, f] <+ e :: (middle ++ middle' ++ e' :: after) :=
      (List.singleton_sublist.mpr (List.mem_append_left _ hf)).cons_cons e
    exact (hpair.trans (List.sublist_append_right before _)).map (·.id)
  refine ⟨?_, pair_sublist_asymm hnodup hlate⟩
  intro heq
  rw [heq] at hlate
  exact List.nodup_iff_sublist.mp hnodup e.id hlate

/-- A history, the calls that have taken effect, in their order, and the state they have led to. -/
inductive Traced (spec : σ → ο → ρ → σ → Prop) (init : σ) :
    List (Event ι ο ρ) → List (Effect ι ο ρ) → σ → Prop
  | init : Traced spec init [] [] init
  | call {history order s} (before : Traced spec init history order s) (i : ι) (op : ο)
    (fresh : ∀ op', .call i op' ∉ history) : Traced spec init (history ++ [.call i op]) order s
  | effect {history order s} (before : Traced spec init history order s) (e : Effect ι ο ρ)
    (called : .call e.id e.op ∈ history) (fresh : e.id ∉ order.map (·.id)) {t : σ}
    (step : spec s e.op e.result t) : Traced spec init history (order ++ [e]) t
  | ret {history order s} (before : Traced spec init history order s) (e : Effect ι ο ρ)
    (done : e ∈ order) : Traced spec init (history ++ [.ret e.id e.result]) order s

namespace Traced

variable {spec : σ → ο → ρ → σ → Prop} {init : σ} {history : List (Event ι ο ρ)}
  {order : List (Effect ι ο ρ)} {s : σ}

/-- Only calls that were made take effect. -/
theorem called_of_mem (h : Traced spec init history order s) :
    ∀ e ∈ order, .call e.id e.op ∈ history := by
  induction h with
  | init => exact fun e he => by cases he
  | call before i op fresh ih => exact fun e he => List.mem_append_left _ (ih e he)
  | effect before e called fresh step ih =>
    intro e' he'
    rcases List.mem_append.mp he' with he' | he'
    · exact ih e' he'
    · rw [List.mem_singleton.mp he']
      exact called
  | ret before e done ih => exact fun e' he' => List.mem_append_left _ (ih e' he')

theorem nodup (h : Traced spec init history order s) : (order.map (·.id)).Nodup := by
  induction h with
  | init => exact List.nodup_nil
  | call before i op fresh ih => exact ih
  | effect before e called fresh step ih =>
    rw [List.map_append, List.map_singleton]
    exact List.nodup_append.mpr ⟨ih, List.nodup_singleton _, fun i hi j hj heq =>
      fresh (by rwa [← List.mem_singleton.mp hj, ← heq])⟩
  | ret before e done ih => exact ih

theorem executes (h : Traced spec init history order s) : Executes spec init order s := by
  induction h with
  | init => exact .nil init
  | call before i op fresh ih => exact ih
  | effect before e called fresh step ih => exact ih.concat step
  | ret before e done ih => exact ih

/-- A call that has returned has taken effect with its result. -/
theorem effect_of_ret (h : Traced spec init history order s) {i : ι} {r : ρ}
    (hret : .ret i r ∈ history) : ∃ e ∈ order, e.id = i ∧ e.result = r := by
  induction h with
  | init => cases hret
  | call before i' op fresh ih =>
    rcases List.mem_append.mp hret with hret | hret
    · exact ih hret
    · cases List.mem_singleton.mp hret
  | effect before e called fresh step ih =>
    obtain ⟨e', he', heq⟩ := ih hret
    exact ⟨e', List.mem_append_left _ he', heq⟩
  | ret before e done ih =>
    rcases List.mem_append.mp hret with hret | hret
    · exact ih hret
    · cases List.mem_singleton.mp hret
      exact ⟨e, done, rfl, rfl⟩

/-- The effects respect real time. -/
theorem realTime (h : Traced spec init history order s) {i j : ι} {r : ρ} {op : ο}
    (hbefore : [.ret i r, .call j op] <+ history) (hj : j ∈ order.map (·.id)) :
    [i, j] <+ order.map (·.id) := by
  induction h with
  | init => cases hbefore
  | call before k op' fresh ih =>
    rcases pair_sublist_concat.mp hbefore with hbefore | ⟨-, hcall⟩
    · exact ih hbefore hj
    · -- the new call has not taken effect
      cases hcall
      obtain ⟨e, he, rfl⟩ := List.mem_map.mp hj
      exact absurd (before.called_of_mem e he) (fresh e.op)
  | effect before e called fresh step ih =>
    rw [List.map_append, List.map_singleton] at hj ⊢
    rcases List.mem_append.mp hj with hj | hj
    · exact (ih hbefore hj).trans (List.sublist_append_left _ _)
    · obtain ⟨e', he', rfl, -⟩ := before.effect_of_ret (hbefore.subset List.mem_cons_self)
      exact pair_sublist_concat.mpr
        (.inr ⟨List.mem_map.mpr ⟨e', he', rfl⟩, List.mem_singleton.mp hj⟩)
  | ret before e done ih =>
    rcases pair_sublist_concat.mp hbefore with hbefore | ⟨-, hcall⟩
    · exact ih hbefore hj
    · cases hcall

/-- **The order of the effects is a linearization.** -/
theorem linearization (h : Traced spec init history order s) :
    Linearization spec init history order where
  once := h.nodup
  called := h.called_of_mem
  complete _ _ hret := h.effect_of_ret hret
  legal := ⟨s, h.executes⟩
  realTime _ _ _ _ hbefore hj := h.realTime hbefore hj

/-- A trace of an object is one of every object it simulates. -/
theorem simulate {spec' : τ → ο → ρ → τ → Prop} (view : σ → τ)
    (hview : ∀ s op r t, spec s op r t → spec' (view s) op r (view t))
    (h : Traced spec init history order s) : Traced spec' (view init) history order (view s) := by
  induction h with
  | init => exact .init
  | call before i op fresh ih => exact ih.call i op fresh
  | effect before e called fresh step ih => exact ih.effect e called fresh (hview _ _ _ _ step)
  | ret before e done ih => exact ih.ret e done

end Traced

end Library
