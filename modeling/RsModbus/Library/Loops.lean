import Mathlib.Order.Basic

/-!
# Loops that may fail

A `while` loop as a function that makes one `Turn`: it goes on from a new state, it is done, or it
fails. `loop` makes turns until one ends the loop. Its fuel bounds the turns, and a loop that runs out
of fuel fails with an error of its own, so that a loop which returns has ended. `loop_spec` is the rule
of a loop with a variant: when every turn `Advances`, the loop returns. An invariant `I` holds at every
turn, a measure `μ` gets smaller, and `Q` relates a state to the result of the loop from it.
-/

namespace Library

/-- What a turn of a loop comes to. -/
inductive Turn (σ ρ : Type*) where
  | again (s : σ)
  | done (r : ρ)

section Loop

variable {ε σ ρ : Type*}

/-- At most `fuel` turns of `body`. -/
def loop (exhausted : ε) (body : σ → Except ε (Turn σ ρ)) : Nat → σ → Except ε ρ
  | 0, _ => .error exhausted
  | fuel + 1, s =>
    match body s with
    | .ok (.again s') => loop exhausted body fuel s'
    | .ok (.done r) => .ok r
    | .error e => .error e

variable {exhausted : ε} {body : σ → Except ε (Turn σ ρ)}

theorem loop_again {s s' : σ} (h : body s = .ok (.again s')) (fuel : Nat) :
    loop exhausted body (fuel + 1) s = loop exhausted body fuel s' := by
  rw [loop, h]

theorem loop_done {s : σ} {r : ρ} (h : body s = .ok (.done r)) (fuel : Nat) :
    loop exhausted body (fuel + 1) s = .ok r := by
  rw [loop, h]

/-- A turn from `s` that does not fail: it ends the loop with a result of `s`, or it goes on from a
smaller state whose results are results of `s`. -/
def Advances (body : σ → Except ε (Turn σ ρ)) (I : σ → Prop) (μ : σ → Nat) (Q : σ → ρ → Prop)
    (s : σ) : Prop :=
  (∃ r, body s = .ok (.done r) ∧ Q s r) ∨
    ∃ s', body s = .ok (.again s') ∧ I s' ∧ μ s' < μ s ∧ ∀ r, Q s' r → Q s r

/-- **The rule of a loop with a variant.** -/
theorem loop_spec {I : σ → Prop} {μ : σ → Nat} {Q : σ → ρ → Prop}
    (turn : ∀ s, I s → Advances body I μ Q s) {fuel : Nat} {s : σ} (init : I s)
    (enough : μ s < fuel) :
    ∃ r, loop exhausted body fuel s = .ok r ∧ Q s r := by
  induction fuel generalizing s with
  | zero => exact absurd enough (Nat.not_lt_zero _)
  | succ fuel ih =>
    rcases turn s init with ⟨r, hdone, hr⟩ | ⟨s', hagain, hnext, hless, hback⟩
    · exact ⟨r, loop_done hdone fuel, hr⟩
    · obtain ⟨r, hr, hq⟩ := ih hnext (Nat.lt_of_lt_of_le hless (Nat.le_of_lt_succ enough))
      exact ⟨r, (loop_again hagain fuel).trans hr, hback r hq⟩

end Loop

end Library
