import Mathlib.Data.List.Basic
import Mathlib.Logic.Function.Iterate

/-!
# Bounded broadcast channels

A broadcast channel keeps the last `cap` values sent. A receiver holds the position of the next
value it will read. When more than `cap` values lie behind that position the oldest of them have
been overwritten: the next read finds the receiver lagged, moves it to the oldest value still kept,
and yields no value. A **subscriber** (`Subscriber`) is a receiver together with the values it has read;
its loop reads on after a lag.

The history `sent` is the list of all values ever sent; only its last `cap` are ever read
(`Subscriber.recv` reads at positions that are not overrun).

* `Subscriber.Ordered`: whatever happens, what a subscriber has read is a sublist of what was sent: in
  order, and no value twice.
* `Subscriber.Intact`: nothing is lost so far: what it has read is exactly what was sent first, and every
  other value is still kept. A send keeps it if fewer than `cap` values are unread (`intact_send`),
  a read always does (`intact_recv`).
* `Subscriber.Overrun`: something is lost. Once true it stays true (`overrun_send`, `overrun_recv`), a send
  on a subscriber with `cap` unread values makes it true (`overrun_of_full`), and a subscriber that
  is overrun never ends up with all that was sent (`Overrun.got_ne`).
* Reading on (`iterate_recv`): what is still kept is read in order; a subscriber that starts when the
  channel is overrun gets the last `cap` values (`iterate_recv_overrun`).

Where only the values matter that a receiver has still to read, they are a list, and a send keeps the
last `cap` of them (`pushLast`).
-/

namespace Library

variable {α : Type*}

/-- A receiver of a broadcast channel: the position of its next value, and what it has read. -/
structure Subscriber (α : Type*) where
  next : Nat := 0
  got : List α := []
  deriving Repr

namespace Subscriber

/-- One iteration of a subscriber's loop: a lagged receiver skips to the oldest value kept, another
reads its next value if there is one. -/
def recv (cap : Nat) (sent : List α) (s : Subscriber α) : Subscriber α :=
  if s.next + cap < sent.length then { s with next := sent.length - cap }
  else
    match sent[s.next]? with
    | some a => ⟨s.next + 1, s.got ++ [a]⟩
    | none => s

/-- What the next iteration of the loop reads: nothing when it lags or has read everything. -/
def next? (cap : Nat) (sent : List α) (s : Subscriber α) : Option α :=
  if s.next + cap < sent.length then none else sent[s.next]?

theorem got_recv (cap : Nat) (sent : List α) (s : Subscriber α) :
    (s.recv cap sent).got = s.got ++ (s.next? cap sent).toList := by
  unfold recv next?
  split
  · exact (List.append_nil _).symm
  · cases sent[s.next]? with
    | none => exact (List.append_nil _).symm
    | some a => rfl

/-- The subscriber has read every value sent. -/
def CaughtUp (sent : List α) (s : Subscriber α) : Prop := s.next = sent.length

/-- What was read is what was sent, in order and without repetition, up to values left out. -/
def Ordered (sent : List α) (s : Subscriber α) : Prop :=
  s.next ≤ sent.length ∧ s.got.Sublist (sent.take s.next)

/-- Fewer than `cap` values are unread: one more can be sent without overwriting any of them. -/
def Room (cap : Nat) (sent : List α) (s : Subscriber α) : Prop := sent.length < s.next + cap

/-- Nothing is lost: what was read is what was sent first, and the rest is still kept. -/
structure Intact (cap : Nat) (sent : List α) (s : Subscriber α) : Prop where
  got : s.got = sent.take s.next
  kept : sent.length ≤ s.next + cap
  le : s.next ≤ sent.length

/-- Something is lost: a value was skipped, or is overwritten before it was read. -/
def Overrun (cap : Nat) (sent : List α) (s : Subscriber α) : Prop :=
  s.got.length ≤ s.next ∧ (s.got.length < s.next ∨ s.next + cap < sent.length)

variable {cap : Nat} {sent : List α} {s : Subscriber α}

instance : Decidable (CaughtUp sent s) := inferInstanceAs (Decidable (_ = _))

/-- A fresh subscriber of a fresh channel. -/
theorem ordered_init : Ordered ([] : List α) {} := ⟨Nat.le_refl _, List.Sublist.refl _⟩

theorem intact_init (cap : Nat) : Intact cap ([] : List α) {} :=
  ⟨rfl, Nat.zero_le _, Nat.le_refl _⟩

/-! ## In order, at most once -/

theorem ordered_send (a : α) (h : Ordered sent s) : Ordered (sent ++ [a]) s := by
  refine ⟨by rw [List.length_append]; exact Nat.le_add_right_of_le h.1, ?_⟩
  rw [List.take_append_of_le_length h.1]
  exact h.2

theorem ordered_recv (h : Ordered sent s) : Ordered sent (s.recv cap sent) := by
  obtain ⟨hle, hsub⟩ := h
  unfold recv
  split
  next hlag =>
    refine ⟨Nat.sub_le _ _, hsub.trans ?_⟩
    exact (List.take_prefix_take_left (by dsimp only; omega)).sublist
  next =>
    cases hget : sent[s.next]? with
    | none => exact ⟨hle, hsub⟩
    | some a =>
      obtain ⟨hlt, rfl⟩ := List.getElem?_eq_some_iff.mp hget
      refine ⟨hlt, ?_⟩
      simp only [List.take_succ_eq_append_getElem hlt]
      exact hsub.append (List.Sublist.refl _)

/-! ## Nothing lost -/

theorem intact_send (a : α) (h : Intact cap sent s) (room : Room cap sent s) :
    Intact cap (sent ++ [a]) s := by
  refine ⟨by rw [List.take_append_of_le_length h.le]; exact h.got, ?_, ?_⟩
  · rw [List.length_append]
    exact room
  · rw [List.length_append]
    exact Nat.le_add_right_of_le h.le

theorem intact_recv (h : Intact cap sent s) : Intact cap sent (s.recv cap sent) := by
  unfold recv
  rw [if_neg (Nat.not_lt.mpr h.kept)]
  cases hget : sent[s.next]? with
  | none => exact h
  | some a =>
    obtain ⟨hlt, rfl⟩ := List.getElem?_eq_some_iff.mp hget
    refine ⟨?_, ?_, hlt⟩
    · simp only [List.take_succ_eq_append_getElem hlt, h.got]
    · exact Nat.le_trans h.kept (Nat.add_le_add_right (Nat.le_succ _) _)

/-- A subscriber that lost nothing and has caught up has read exactly what was sent. -/
theorem Intact.got_eq (h : Intact cap sent s) (done : CaughtUp sent s) : s.got = sent := by
  rw [h.got, done, List.take_length]

/-! ## Something lost -/

/-- A send on a subscriber with no room overwrites a value it has not read. -/
theorem overrun_of_full (a : α) (h : Intact cap sent s) (full : ¬ Room cap sent s) :
    Overrun cap (sent ++ [a]) s := by
  refine ⟨?_, .inr ?_⟩
  · rw [h.got]
    exact List.length_take_le _ _
  · rw [List.length_append]
    exact Nat.lt_succ_of_le (Nat.not_lt.mp full)

theorem overrun_send (a : α) (h : Overrun cap sent s) : Overrun cap (sent ++ [a]) s :=
  ⟨h.1, h.2.imp_right fun hlt => by rw [List.length_append]; exact Nat.lt_succ_of_lt hlt⟩

theorem overrun_recv (h : Overrun cap sent s) : Overrun cap sent (s.recv cap sent) := by
  obtain ⟨hle, hlost⟩ := h
  unfold recv
  split
  next hlag => exact ⟨by dsimp only; omega, .inl (by dsimp only; omega)⟩
  next hlag =>
    have hskip : s.got.length < s.next := hlost.resolve_right hlag
    cases hget : sent[s.next]? with
    | none => exact ⟨hle, .inl hskip⟩
    | some a =>
      refine ⟨?_, .inl ?_⟩ <;> simp only [List.length_append, List.length_singleton] <;> omega

/-- A subscriber that was overrun never has all that was sent, even when it has caught up. -/
theorem Overrun.got_ne (h : Overrun cap sent s) (done : CaughtUp sent s) : s.got ≠ sent := by
  intro heq
  have hnext : s.next = sent.length := done
  rcases h.2 with hlt | hlt
  · rw [heq] at hlt
    omega
  · omega

/-! ## Reading on -/

/-- Reads of what is still kept. -/
theorem iterate_recv {n : Nat} (hkept : sent.length ≤ s.next + cap) (hn : s.next + n ≤ sent.length) :
    (recv cap sent)^[n] s = ⟨s.next + n, s.got ++ (sent.drop s.next).take n⟩ := by
  induction n generalizing s with
  | zero => rw [Function.iterate_zero, id, Nat.add_zero, List.take_zero, List.append_nil]
  | succ n ih =>
    have hlt : s.next < sent.length := by omega
    have hread : s.recv cap sent = ⟨s.next + 1, s.got ++ [sent[s.next]]⟩ := by
      rw [recv, if_neg (Nat.not_lt.mpr hkept), List.getElem?_eq_getElem hlt]
    rw [Function.iterate_succ_apply, hread, ih (by dsimp only; omega) (by dsimp only; omega),
      List.drop_eq_getElem_cons hlt, List.take_succ_cons, List.append_assoc, List.singleton_append,
      Nat.add_assoc, Nat.add_comm 1 n]

/-- A subscriber that starts to read when the channel is overrun gets the last `cap` values. -/
theorem iterate_recv_overrun (h : cap < sent.length) :
    (recv cap sent)^[cap + 1] {} = ⟨sent.length, sent.drop (sent.length - cap)⟩ := by
  have hlagged : recv cap sent {} = ⟨sent.length - cap, []⟩ :=
    if_pos (show 0 + cap < sent.length by omega)
  have hnext : sent.length - cap + cap = sent.length := Nat.sub_add_cancel (Nat.le_of_lt h)
  have hlast : (sent.drop (sent.length - cap)).take cap = sent.drop (sent.length - cap) :=
    List.take_of_length_le (by rw [List.length_drop]; omega)
  rw [Function.iterate_succ_apply, hlagged, iterate_recv (Nat.le_of_eq hnext.symm) (Nat.le_of_eq hnext),
    hlast, hnext, List.nil_append]

end Subscriber

/-! ## What a receiver has still to read -/

/-- A send to a receiver that has `unread` values to read. -/
def pushLast (cap : Nat) (unread : List α) (a : α) : List α :=
  (unread ++ [a]).drop (unread.length + 1 - cap)

/-- With room nothing is lost. -/
theorem pushLast_of_room {cap : Nat} {unread : List α} (room : unread.length < cap) (a : α) :
    pushLast cap unread a = unread ++ [a] := by
  rw [pushLast, Nat.sub_eq_zero_of_le room, List.drop_zero]

theorem length_pushLast_le {cap : Nat} {unread : List α} {a : α} (hcap : 0 < cap) :
    (pushLast cap unread a).length ≤ cap := by
  rw [pushLast, List.length_drop, List.length_append, List.length_singleton]
  omega

/-- A send loses only the oldest of `cap` unread values. -/
theorem count_pushLast [BEq α] [LawfulBEq α] [DecidableEq α] {cap : Nat} (hcap : 0 < cap) {unread : List α} {a b : α}
    (hbounded : unread.length ≤ cap) (hkept : unread.head? = some b → unread.length < cap) :
    (pushLast cap unread a).count b = unread.count b + if a = b then 1 else 0 := by
  by_cases room : unread.length < cap
  · rw [pushLast_of_room room, List.count_append, List.count_singleton]
    by_cases hab : a = b <;> simp [hab]
  · have hfull : unread.length = cap := Nat.le_antisymm hbounded (Nat.not_lt.mp room)
    cases unread with
    | nil => exact absurd hfull (Nat.ne_of_lt hcap)
    | cons c unread =>
      have hne : c ≠ b := fun hcb => room (hkept (congrArg some hcb))
      have hpush : pushLast cap (c :: unread) a = unread ++ [a] := by
        rw [pushLast, hfull, Nat.add_sub_cancel_left]
        rfl
      rw [hpush, List.count_append, List.count_singleton, List.count_cons_of_ne hne]
      by_cases hab : a = b <;> simp [hab]

/-- What is unread after a send was sent or unread before. -/
theorem mem_of_mem_pushLast {cap : Nat} {unread : List α} {a b : α} (h : b ∈ pushLast cap unread a) :
    b ∈ unread ∨ b = a := by
  rcases List.mem_append.mp (List.mem_of_mem_drop h) with hold | hnew
  · exact .inl hold
  · exact .inr (List.mem_singleton.mp hnew)

end Library
