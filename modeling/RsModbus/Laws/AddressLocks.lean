import Mathlib.Algebra.Order.BigOperators.Group.Finset
import Mathlib.Data.Fintype.Basic
import Mathlib.Data.Finset.Max
import RsModbus.Library.Runs
import RsModbus.Slave.AddressLocks

/-!
# The address locks exclude and never deadlock

`addressLocks_correct`: in every state that any number of concurrent calls of `with_address_lock` can
reach, two calls with a common address are not both in their body, some unfinished call can go on, no
entry is removed while a call holds or awaits its mutex, and the map is empty once all calls have
returned.

The invariant has four parts that the steps touch one at a time: the lock of the map (`MapLockInv`),
the clones and their count (`ClonesInv`), the mutexes (`MutexInv`), and who will clean up an entry
(`PendingInv`).
-/

namespace RsModbus.Slave

open Library

/-! ## What a call has, by its phase -/

namespace LockPhase

/-- The call holds the lock of the map or waits for it. -/
def atMap : LockPhase → Bool
  | waitMap | collect .. | waitCleanup | cleanup .. => true
  | _ => false

/-- The call holds the lock of the map. -/
def inMap : LockPhase → Bool
  | collect .. | cleanup .. => true
  | _ => false

/-- The clones the call has. -/
def clones : LockPhase → List LockArc
  | collect lockArcs _ => lockArcs
  | acquire guards rest => guards ++ rest
  | waitMutex guards arc rest => guards ++ arc :: rest
  | body guards => guards
  | release released guards => released ++ guards
  | dropArcs lockArcs => lockArcs
  | _ => []

/-- The mutexes the call has locked. -/
def guards : LockPhase → List LockArc
  | acquire guards _ => guards
  | waitMutex guards _ _ => guards
  | body guards => guards
  | release _ guards => guards
  | _ => []

/-- The call is in its body. -/
def inBody : LockPhase → Bool
  | body _ => true
  | _ => false

/-- The mutexes the call has locked or waits for. -/
def contended : LockPhase → List LockArc
  | waitMutex guards arc _ => guards ++ [arc]
  | phase => phase.guards

/-- A call has a clone of every mutex it locks or waits for. -/
theorem contended_subset_clones {phase : LockPhase} {arc : LockArc} (h : arc ∈ phase.contended) :
    arc ∈ phase.clones := by
  cases phase with
  | acquire guards rest => exact List.mem_append_left _ h
  | waitMutex guards arc' rest =>
    rcases List.mem_append.mp h with h | h
    · exact List.mem_append_left _ h
    · exact List.mem_append_right _ (List.mem_cons.mpr (.inl (List.mem_singleton.mp h)))
  | body guards => exact h
  | release released guards => exact List.mem_append_right _ h
  | _ => cases h

/-- The addresses of the clones, against the sorted addresses of the call. -/
def Aligned (sorted : List UInt16) : LockPhase → Prop
  | collect lockArcs rest => lockArcs.map (·.address) ++ rest = sorted
  | acquire guards rest => (guards ++ rest).map (·.address) = sorted
  | waitMutex guards arc rest => (guards ++ arc :: rest).map (·.address) = sorted
  | body guards => guards.map (·.address) = sorted
  | release released guards => (released ++ guards).map (·.address) = sorted
  | dropArcs lockArcs => lockArcs.map (·.address) <:+ sorted
  | cleanup rest => rest <:+ sorted
  | _ => True

/-- The addresses whose entry the call will look at when it cleans up. -/
def pending (sorted : List UInt16) : LockPhase → List UInt16
  | collect lockArcs _ => lockArcs.map (·.address)
  | acquire .. | waitMutex .. | body _ | release .. | dropArcs _ | waitCleanup => sorted
  | cleanup rest => rest
  | _ => []

end LockPhase

/-! ## Sorted addresses -/

theorem mem_sortedAddresses {addresses : List UInt16} {a : UInt16} :
    a ∈ sortedAddresses addresses ↔ a ∈ addresses := by
  rw [sortedAddresses, List.mem_dedup, List.mem_insertionSort]

/-- The addresses are locked in strictly ascending order. -/
theorem pairwise_sortedAddresses (addresses : List UInt16) :
    (sortedAddresses addresses).Pairwise (· < ·) := by
  have : Std.Total (α := UInt16) (· ≤ ·) := ⟨UInt16.le_total⟩
  have : IsTrans UInt16 (· ≤ ·) := ⟨fun _ _ _ => UInt16.le_trans⟩
  have hsorted : (sortedAddresses addresses).Pairwise (· ≤ ·) :=
    (List.pairwise_insertionSort _ addresses).sublist (List.dedup_sublist _)
  refine (hsorted.and (List.nodup_dedup _)).imp ?_
  intro a b h
  exact UInt16.lt_of_le_of_ne h.1 h.2

theorem nodup_sortedAddresses (addresses : List UInt16) : (sortedAddresses addresses).Nodup :=
  (pairwise_sortedAddresses addresses).imp fun h => UInt16.ne_of_lt h

/-! ## The invariant -/

namespace AddressLocks

variable {ι : Type} [DecidableEq ι] {addresses : ι → List UInt16} {s t : AddressLocks ι} {i j : ι}

@[simp] theorem phase_setPhase_self (s : AddressLocks ι) (i : ι) (p : LockPhase) :
    (s.setPhase i p).phase i = p := Function.update_self ..

theorem phase_setPhase_of_ne (s : AddressLocks ι) (p : LockPhase) (h : j ≠ i) :
    (s.setPhase i p).phase j = s.phase j := Function.update_of_ne h ..

/-- The lock of the map is held or awaited by the calls that say so. -/
structure MapLockInv (s : AddressLocks ι) : Prop where
  wellFormed : s.mapLock.WellFormed
  members : ∀ i, i ∈ s.mapLock.members ↔ (s.phase i).atMap = true
  holder : ∀ i, (s.phase i).inMap = true → s.mapLock.owner = some i

/-- The clones of a mutex, over all calls. -/
def clonesOf [Fintype ι] (s : AddressLocks ι) (n : Nat) : Nat :=
  ∑ i, ((s.phase i).clones.map (·.mutex)).count n

/-- A clone is of the mutex that the map has for its address, and the count of an entry is one more
than its clones. -/
structure ClonesInv [Fintype ι] (addresses : ι → List UInt16) (s : AddressLocks ι) : Prop where
  fresh : ∀ a n, s.locks a = some n → n < s.next
  injective : ∀ a b n, s.locks a = some n → s.locks b = some n → a = b
  aligned : ∀ i, (s.phase i).Aligned (sortedAddresses (addresses i))
  entered : ∀ i, ∀ arc ∈ (s.phase i).clones, s.locks arc.address = some arc.mutex
  counted : ∀ a n, s.locks a = some n → s.strong n = 1 + s.clonesOf n

/-- A mutex is locked or awaited by the calls that say so. -/
structure MutexInv (s : AddressLocks ι) : Prop where
  wellFormed : ∀ n, (s.mutex n).WellFormed
  members : ∀ n i, i ∈ (s.mutex n).members ↔ n ∈ (s.phase i).contended.map (·.mutex)
  holder : ∀ i, ∀ arc ∈ (s.phase i).guards, (s.mutex arc.mutex).owner = some i

/-- Some call will clean up each entry. -/
def PendingInv (addresses : ι → List UInt16) (s : AddressLocks ι) : Prop :=
  ∀ a n, s.locks a = some n → ∃ i, a ∈ (s.phase i).pending (sortedAddresses (addresses i))

/-- The invariant of the protocol. -/
structure Inv [Fintype ι] (addresses : ι → List UInt16) (s : AddressLocks ι) : Prop where
  mapLock : s.MapLockInv
  clones : s.ClonesInv addresses
  mutex : s.MutexInv
  pending : s.PendingInv addresses

/-! ## What a turn does -/

/-- A phase with the clones and the mutexes of another, and no less to clean up. A mutex that is only
awaited in the one and locked in the other is owned by the call. -/
structure SameArcs (s : AddressLocks ι) (i : ι) (sorted : List UInt16) (p : LockPhase) : Prop where
  clones : p.clones = (s.phase i).clones
  contended : p.contended = (s.phase i).contended
  guards : ∀ arc ∈ p.guards, arc ∈ (s.phase i).guards ∨ (s.mutex arc.mutex).owner = some i
  aligned : (s.phase i).Aligned sorted → p.Aligned sorted
  pending : (s.phase i).Aligned sorted → ∀ a ∈ (s.phase i).pending sorted, a ∈ p.pending sorted

/-- What a turn of call `i` can do. -/
inductive Turn (addresses : ι → List UInt16) (s : AddressLocks ι) (i : ι) : AddressLocks ι → Prop
  | move (p : LockPhase) (hat : p.atMap = (s.phase i).atMap)
    (hin : p.inMap = true → s.mapLock.owner = some i)
    (hsame : SameArcs s i (sortedAddresses (addresses i)) p) :
    Turn addresses s i (s.setPhase i p)
  | ask (p : LockPhase) (hold : (s.phase i).atMap = false) (hat : p.atMap = true)
    (hin : p.inMap = false) (hsame : SameArcs s i (sortedAddresses (addresses i)) p) :
    Turn addresses s i ({ s with mapLock := s.mapLock.lock i }.setPhase i p)
  | leave (p : LockPhase) (hold : (s.phase i).inMap = true) (hat : p.atMap = false)
    (hin : p.inMap = false) (hsame : SameArcs s i (sortedAddresses (addresses i)) p) :
    Turn addresses s i ({ s with mapLock := s.mapLock.unlock }.setPhase i p)
  | collect {lockArcs : List LockArc} {a : UInt16} {rest : List UInt16}
    (hphase : s.phase i = .collect lockArcs (a :: rest)) :
    Turn addresses s i (((s.entry a).1.cloneArc (s.entry a).2).setPhase i
      (.collect (lockArcs ++ [⟨a, (s.entry a).2⟩]) rest))
  | lock {guards : List LockArc} {arc : LockArc} {rest : List LockArc}
    (hphase : s.phase i = .acquire guards (arc :: rest)) :
    Turn addresses s i ({ s with
      mutex := Function.update s.mutex arc.mutex ((s.mutex arc.mutex).lock i) }.setPhase i
        (.waitMutex guards arc rest))
  | unlock {released : List LockArc} {arc : LockArc} {guards : List LockArc}
    (hphase : s.phase i = .release released (arc :: guards)) :
    Turn addresses s i ({ s with
      mutex := Function.update s.mutex arc.mutex (s.mutex arc.mutex).unlock }.setPhase i
        (.release (released ++ [arc]) guards))
  | drop {arc : LockArc} {lockArcs : List LockArc} (hphase : s.phase i = .dropArcs (arc :: lockArcs)) :
    Turn addresses s i ((s.dropArc arc.mutex).setPhase i (.dropArcs lockArcs))
  | clean {a : UInt16} {rest : List UInt16} (hphase : s.phase i = .cleanup (a :: rest)) :
    Turn addresses s i ((s.cleanEntry a).setPhase i (.cleanup rest))

/-! The changes of phase that keep the clones and the mutexes, in the order of a call. -/

section Phases

omit [DecidableEq ι]

variable {sorted : List UInt16} {guards lockArcs released rest : List LockArc} {arc : LockArc}

theorem sameArcs_waitMap (hphase : s.phase i = .start) : SameArcs s i sorted .waitMap := by
  constructor <;> rw [hphase]
  · rfl
  · rfl
  · exact fun _ hmem => by cases hmem
  · exact id
  · exact fun _ _ hmem => by cases hmem

theorem sameArcs_collect (hphase : s.phase i = .waitMap) :
    SameArcs s i sorted (.collect [] sorted) := by
  constructor <;> rw [hphase]
  · rfl
  · rfl
  · exact fun _ hmem => by cases hmem
  · exact fun _ => rfl
  · exact fun _ _ hmem => by cases hmem

theorem sameArcs_acquire (hphase : s.phase i = .collect lockArcs []) :
    SameArcs s i sorted (.acquire [] lockArcs) := by
  constructor <;> rw [hphase]
  · rfl
  · rfl
  · exact fun _ hmem => by cases hmem
  · exact fun h => (List.append_nil _).symm.trans h
  · intro h a hmem
    have h : lockArcs.map (·.address) ++ [] = sorted := h
    rw [List.append_nil] at h
    exact h ▸ hmem

theorem sameArcs_acquired (hphase : s.phase i = .waitMutex guards arc rest)
    (howner : (s.mutex arc.mutex).owner = some i) :
    SameArcs s i sorted (.acquire (guards ++ [arc]) rest) := by
  constructor <;> rw [hphase]
  · exact List.append_assoc guards [arc] rest
  · rfl
  · intro arc' hmem
    rcases List.mem_append.mp hmem with hmem | hmem
    · exact .inl hmem
    · rw [List.mem_singleton.mp hmem]
      exact .inr howner
  · intro h
    have hassoc : guards ++ [arc] ++ rest = guards ++ arc :: rest := List.append_assoc ..
    exact (congrArg (List.map LockArc.address) hassoc).trans h
  · exact fun _ _ hmem => hmem

theorem sameArcs_body (hphase : s.phase i = .acquire guards []) :
    SameArcs s i sorted (.body guards) := by
  constructor <;> rw [hphase]
  · exact (List.append_nil _).symm
  · rfl
  · exact fun _ hmem => .inl hmem
  · intro h
    have h : List.map LockArc.address (guards ++ []) = sorted := h
    rwa [List.append_nil] at h
  · exact fun _ _ hmem => hmem

theorem sameArcs_release (hphase : s.phase i = .body guards) :
    SameArcs s i sorted (.release [] guards) := by
  constructor <;> rw [hphase]
  · rfl
  · rfl
  · exact fun _ hmem => .inl hmem
  · exact id
  · exact fun _ _ hmem => hmem

theorem sameArcs_dropArcs (hphase : s.phase i = .release released []) :
    SameArcs s i sorted (.dropArcs released) := by
  constructor <;> rw [hphase]
  · exact (List.append_nil _).symm
  · rfl
  · exact fun _ hmem => by cases hmem
  · intro h
    have h : List.map LockArc.address (released ++ []) = sorted := h
    rw [List.append_nil] at h
    rw [← h]
    exact List.suffix_refl _
  · exact fun _ _ hmem => hmem

theorem sameArcs_waitCleanup (hphase : s.phase i = .dropArcs []) :
    SameArcs s i sorted .waitCleanup := by
  constructor <;> rw [hphase]
  · rfl
  · rfl
  · exact fun _ hmem => by cases hmem
  · exact fun _ => trivial
  · exact fun _ _ hmem => hmem

theorem sameArcs_cleanup (hphase : s.phase i = .waitCleanup) :
    SameArcs s i sorted (.cleanup sorted) := by
  constructor <;> rw [hphase]
  · rfl
  · rfl
  · exact fun _ hmem => by cases hmem
  · exact fun _ => List.suffix_refl _
  · exact fun _ _ hmem => hmem

theorem sameArcs_done (hphase : s.phase i = .cleanup []) : SameArcs s i sorted .done := by
  constructor <;> rw [hphase]
  · rfl
  · rfl
  · exact fun _ hmem => by cases hmem
  · exact fun _ => trivial
  · exact fun _ _ hmem => hmem

end Phases

theorem step_turn (hstep : s.step addresses i = some t) : Turn addresses s i t := by
  unfold AddressLocks.step at hstep
  split at hstep
  next hphase =>
    cases hstep
    exact .ask _ (by rw [hphase]; rfl) rfl rfl (sameArcs_waitMap hphase)
  next hphase =>
    split at hstep
    next howner =>
      cases hstep
      exact .move _ (by rw [hphase]; rfl) (fun _ => howner) (sameArcs_collect hphase)
    next => cases hstep
  next lockArcs a rest hphase =>
    cases hstep
    exact .collect hphase
  next lockArcs hphase =>
    cases hstep
    exact .leave _ (by rw [hphase]; rfl) rfl rfl (sameArcs_acquire hphase)
  next guards arc rest hphase =>
    cases hstep
    exact .lock hphase
  next guards hphase =>
    cases hstep
    exact .move _ (by rw [hphase]; rfl) (fun hin => by cases hin) (sameArcs_body hphase)
  next guards arc rest hphase =>
    split at hstep
    next howner =>
      cases hstep
      exact .move _ (by rw [hphase]; rfl) (fun hin => by cases hin) (sameArcs_acquired hphase howner)
    next => cases hstep
  next guards hphase =>
    cases hstep
    exact .move _ (by rw [hphase]; rfl) (fun hin => by cases hin) (sameArcs_release hphase)
  next released arc guards hphase =>
    cases hstep
    exact .unlock hphase
  next released hphase =>
    cases hstep
    exact .move _ (by rw [hphase]; rfl) (fun hin => by cases hin) (sameArcs_dropArcs hphase)
  next arc lockArcs hphase =>
    cases hstep
    exact .drop hphase
  next hphase =>
    cases hstep
    exact .ask _ (by rw [hphase]; rfl) rfl rfl (sameArcs_waitCleanup hphase)
  next hphase =>
    split at hstep
    next howner =>
      cases hstep
      exact .move _ (by rw [hphase]; rfl) (fun _ => howner) (sameArcs_cleanup hphase)
    next => cases hstep
  next a rest hphase =>
    cases hstep
    exact .clean hphase
  next hphase =>
    cases hstep
    exact .leave _ (by rw [hphase]; rfl) rfl rfl (sameArcs_done hphase)
  next => cases hstep

/-! ## The lock of the map -/

/-- The call moves on, and neither asks for the lock of the map nor releases it. -/
theorem MapLockInv.move (h : s.MapLockInv) {p : LockPhase} (hlock : t.mapLock = s.mapLock)
    (hphase : t.phase = Function.update s.phase i p) (hat : p.atMap = (s.phase i).atMap)
    (hin : p.inMap = true → s.mapLock.owner = some i) : t.MapLockInv := by
  refine ⟨hlock ▸ h.wellFormed, ?_, ?_⟩
  · intro j
    rw [hlock, hphase, h.members j]
    by_cases hj : j = i
    · subst hj
      rw [Function.update_self, hat]
    · rw [Function.update_of_ne hj]
  · intro j hj
    rw [hphase] at hj
    rw [hlock]
    by_cases hji : j = i
    · subst hji
      rw [Function.update_self] at hj
      exact hin hj
    · rw [Function.update_of_ne hji] at hj
      exact h.holder j hj

/-- The call asks for the lock of the map. -/
theorem MapLockInv.ask (h : s.MapLockInv) {p : LockPhase} (hlock : t.mapLock = s.mapLock.lock i)
    (hphase : t.phase = Function.update s.phase i p) (hold : (s.phase i).atMap = false)
    (hat : p.atMap = true) (hin : p.inMap = false) : t.MapLockInv := by
  have hi : i ∉ s.mapLock.members := fun hmem => by
    rw [(h.members i).mp hmem] at hold
    cases hold
  refine ⟨hlock ▸ h.wellFormed.lock hi, ?_, ?_⟩
  · intro j
    rw [hlock, hphase, FairMutex.mem_lock h.wellFormed, h.members j]
    by_cases hj : j = i
    · subst hj
      rw [Function.update_self, hat]
      exact iff_of_true (.inr rfl) rfl
    · rw [Function.update_of_ne hj, or_iff_left hj]
  · intro j hj
    rw [hphase] at hj
    rw [hlock]
    by_cases hji : j = i
    · subst hji
      rw [Function.update_self, hin] at hj
      cases hj
    · rw [Function.update_of_ne hji] at hj
      exact FairMutex.owner_lock (h.holder j hj)

/-- The call releases the lock of the map. -/
theorem MapLockInv.leave (h : s.MapLockInv) {p : LockPhase} (hlock : t.mapLock = s.mapLock.unlock)
    (hphase : t.phase = Function.update s.phase i p) (hold : (s.phase i).inMap = true)
    (hat : p.atMap = false) (hin : p.inMap = false) : t.MapLockInv := by
  have howner := h.holder i hold
  refine ⟨hlock ▸ h.wellFormed.unlock howner, ?_, ?_⟩
  · intro j
    rw [hlock, hphase, FairMutex.mem_unlock h.wellFormed howner, h.members j]
    by_cases hj : j = i
    · subst hj
      rw [Function.update_self, hat]
      exact iff_of_false (fun hne => hne.2 rfl) Bool.false_ne_true
    · rw [Function.update_of_ne hj, and_iff_left hj]
  · intro j hj
    rw [hphase] at hj
    by_cases hji : j = i
    · subst hji
      rw [Function.update_self, hin] at hj
      cases hj
    · rw [Function.update_of_ne hji] at hj
      exact absurd (Option.some.inj ((h.holder j hj).symm.trans howner)) hji

omit [DecidableEq ι] in
theorem mapLock_entry (s : AddressLocks ι) (a : UInt16) : (s.entry a).1.mapLock = s.mapLock := by
  unfold entry
  split <;> rfl

omit [DecidableEq ι] in
theorem phase_entry (s : AddressLocks ι) (a : UInt16) : (s.entry a).1.phase = s.phase := by
  unfold entry
  split <;> rfl

omit [DecidableEq ι] in
theorem mapLock_cleanEntry (s : AddressLocks ι) (a : UInt16) :
    (s.cleanEntry a).mapLock = s.mapLock := by
  unfold cleanEntry dropArc
  split
  · split <;> rfl
  · rfl

omit [DecidableEq ι] in
theorem phase_cleanEntry (s : AddressLocks ι) (a : UInt16) : (s.cleanEntry a).phase = s.phase := by
  unfold cleanEntry dropArc
  split
  · split <;> rfl
  · rfl

omit [DecidableEq ι] in
theorem mutex_cleanEntry (s : AddressLocks ι) (a : UInt16) : (s.cleanEntry a).mutex = s.mutex := by
  unfold cleanEntry dropArc
  split
  · split <;> rfl
  · rfl

theorem MapLockInv.step (h : s.MapLockInv) (hturn : Turn addresses s i t) : t.MapLockInv := by
  cases hturn with
  | move p hat hin hsame => exact h.move rfl rfl hat hin
  | ask p hold hat hin hsame => exact h.ask rfl rfl hold hat hin
  | leave p hold hat hin hsame => exact h.leave rfl rfl hold hat hin
  | @collect lockArcs a rest hphase =>
    have howner := h.holder i (by rw [hphase]; rfl)
    exact h.move (mapLock_entry s a) (congrArg (Function.update · i _) (phase_entry s a))
      (by rw [hphase]; rfl) fun _ => howner
  | lock hphase => exact h.move rfl rfl (by rw [hphase]; rfl) fun hin => by cases hin
  | unlock hphase => exact h.move rfl rfl (by rw [hphase]; rfl) fun hin => by cases hin
  | drop hphase => exact h.move rfl rfl (by rw [hphase]; rfl) fun hin => by cases hin
  | @clean a rest hphase =>
    have howner := h.holder i (by rw [hphase]; rfl)
    exact h.move (mapLock_cleanEntry s a) (congrArg (Function.update · i _) (phase_cleanEntry s a))
      (by rw [hphase]; rfl) fun _ => howner

/-! ## The clones -/

section Clones

/-- The clones after a call has moved on, against those before. -/
theorem clonesOf_update [Fintype ι] {p : LockPhase}
    (hphase : t.phase = Function.update s.phase i p) (n : Nat) :
    t.clonesOf n + ((s.phase i).clones.map (·.mutex)).count n =
      s.clonesOf n + (p.clones.map (·.mutex)).count n := by
  unfold clonesOf
  rw [hphase, ← Finset.add_sum_erase _ _ (Finset.mem_univ i),
    ← Finset.add_sum_erase _ (fun j => ((s.phase j).clones.map (·.mutex)).count n)
      (Finset.mem_univ i), Function.update_self]
  have hrest : ∀ j ∈ Finset.univ.erase i,
      ((Function.update s.phase i p j).clones.map (·.mutex)).count n =
        ((s.phase j).clones.map (·.mutex)).count n := by
    intro j hj
    rw [Function.update_of_ne (Finset.ne_of_mem_erase hj)]
  rw [Finset.sum_congr rfl hrest]
  omega

theorem clonesOf_same [Fintype ι] {p : LockPhase} (hphase : t.phase = Function.update s.phase i p)
    (hclones : p.clones = (s.phase i).clones) (n : Nat) : t.clonesOf n = s.clonesOf n := by
  have h := clonesOf_update hphase n
  rw [hclones] at h
  omega

omit [DecidableEq ι] in
/-- A mutex with a clone is counted. -/
theorem clonesOf_pos [Fintype ι] {arc : LockArc} (h : arc ∈ (s.phase i).clones) :
    0 < s.clonesOf arc.mutex := by
  have hcount : 0 < ((s.phase i).clones.map (·.mutex)).count arc.mutex :=
    List.count_pos_iff.mpr (List.mem_map_of_mem h)
  exact Nat.lt_of_lt_of_le hcount (Finset.single_le_sum
    (f := fun j => ((s.phase j).clones.map (·.mutex)).count arc.mutex)
    (fun _ _ => Nat.zero_le _) (Finset.mem_univ i))

omit [DecidableEq ι] in
/-- A mutex that is counted has a clone. -/
theorem exists_clone [Fintype ι] {n : Nat} (h : s.clonesOf n ≠ 0) :
    ∃ i, ∃ arc ∈ (s.phase i).clones, arc.mutex = n := by
  obtain ⟨i, -, hi⟩ := Finset.exists_ne_zero_of_sum_ne_zero h
  have hmem := List.count_pos_iff.mp (Nat.pos_of_ne_zero hi)
  obtain ⟨arc, harc, heq⟩ := List.mem_map.mp hmem
  exact ⟨i, arc, harc, heq⟩

variable [Fintype ι]

omit [DecidableEq ι] in
/-- The addresses of the clones of a call are among its addresses, in order. -/
theorem ClonesInv.addresses_sublist (h : s.ClonesInv addresses) (i : ι) :
    ((s.phase i).clones.map (·.address)).Sublist (sortedAddresses (addresses i)) := by
  have haligned := h.aligned i
  cases hphase : s.phase i with
  | collect lockArcs rest =>
    rw [hphase] at haligned
    have heq : lockArcs.map (·.address) ++ rest = sortedAddresses (addresses i) := haligned
    exact heq ▸ List.sublist_append_left _ _
  | dropArcs lockArcs =>
    rw [hphase] at haligned
    exact List.IsSuffix.sublist haligned
  | acquire guards rest =>
    rw [hphase] at haligned
    exact (haligned : (guards ++ rest).map (·.address) = _) ▸ List.Sublist.refl _
  | waitMutex guards arc rest =>
    rw [hphase] at haligned
    exact (haligned : (guards ++ arc :: rest).map (·.address) = _) ▸ List.Sublist.refl _
  | body guards =>
    rw [hphase] at haligned
    exact (haligned : guards.map (·.address) = _) ▸ List.Sublist.refl _
  | release released guards =>
    rw [hphase] at haligned
    exact (haligned : (released ++ guards).map (·.address) = _) ▸ List.Sublist.refl _
  | _ => exact List.nil_sublist _

omit [DecidableEq ι] in
/-- A call has no two clones of one mutex. -/
theorem ClonesInv.nodup (h : s.ClonesInv addresses) (i : ι) :
    ((s.phase i).clones.map (·.mutex)).Nodup := by
  have hnodup : ((s.phase i).clones.map (·.address)).Nodup :=
    (h.addresses_sublist i).nodup (nodup_sortedAddresses _)
  rw [List.nodup_map_iff_inj_on (List.Nodup.of_map _ hnodup)]
  intro arc harc arc' harc' heq
  have hentered := h.entered i arc harc
  rw [heq] at hentered
  have haddress := h.injective _ _ _ hentered (h.entered i arc' harc')
  obtain ⟨a, n⟩ := arc
  obtain ⟨a', n'⟩ := arc'
  exact (LockArc.mk.injEq ..).mpr ⟨haddress, heq⟩

/-- The map and the counts stay, and the call keeps its clones. -/
theorem ClonesInv.move (h : s.ClonesInv addresses) {p : LockPhase} (hlocks : t.locks = s.locks)
    (hstrong : t.strong = s.strong) (hnext : t.next = s.next)
    (hphase : t.phase = Function.update s.phase i p) (hclones : p.clones = (s.phase i).clones)
    (haligned : p.Aligned (sortedAddresses (addresses i))) : t.ClonesInv addresses := by
  refine ⟨?_, ?_, ?_, ?_, ?_⟩
  · rw [hlocks, hnext]
    exact h.fresh
  · rw [hlocks]
    exact h.injective
  · intro j
    rw [hphase]
    by_cases hj : j = i
    · subst hj
      rwa [Function.update_self]
    · rw [Function.update_of_ne hj]
      exact h.aligned j
  · intro j arc harc
    rw [hphase] at harc
    rw [hlocks]
    by_cases hj : j = i
    · subst hj
      rw [Function.update_self, hclones] at harc
      exact h.entered j arc harc
    · rw [Function.update_of_ne hj] at harc
      exact h.entered j arc harc
  · intro a n hn
    rw [hlocks] at hn
    rw [hstrong, clonesOf_same hphase hclones]
    exact h.counted a n hn

omit [DecidableEq ι] [Fintype ι] in
/-- An entry is looked up, or made. -/
theorem entry_cases (s : AddressLocks ι) (a : UInt16) :
    (∃ n, s.locks a = some n ∧ s.entry a = (s, n)) ∨
      s.locks a = none ∧ s.entry a = ({ s with
        locks := Function.update s.locks a (some s.next)
        mutex := Function.update s.mutex s.next ⟨none, []⟩
        strong := Function.update s.strong s.next 1
        next := s.next + 1 }, s.next) := by
  unfold entry
  cases hentry : s.locks a with
  | some n => exact .inl ⟨n, rfl, rfl⟩
  | none => exact .inr ⟨rfl, rfl⟩

omit [DecidableEq ι] [Fintype ι] in
theorem locks_entry (s : AddressLocks ι) (a : UInt16) :
    (s.entry a).1.locks a = some (s.entry a).2 := by
  obtain ⟨n, hentry, heq⟩ | ⟨-, heq⟩ := entry_cases s a
  · rw [heq]
    exact hentry
  · rw [heq]
    exact Function.update_self ..

omit [DecidableEq ι] in
/-- The mutexes of clones have been made. -/
theorem ClonesInv.lt_next (h : s.ClonesInv addresses) {arc : LockArc}
    (harc : arc ∈ (s.phase i).clones) : arc.mutex < s.next :=
  h.fresh _ _ (h.entered i arc harc)

omit [DecidableEq ι] in
/-- A mutex yet to be made has no clones. -/
theorem ClonesInv.clonesOf_next (h : s.ClonesInv addresses) : s.clonesOf s.next = 0 := by
  by_contra hne
  obtain ⟨j, arc, harc, heq⟩ := exists_clone hne
  have hlt := h.lt_next harc
  omega

omit [DecidableEq ι] in
/-- An entry that is made has no clones yet. -/
theorem ClonesInv.entry (h : s.ClonesInv addresses) (a : UInt16) :
    (s.entry a).1.ClonesInv addresses := by
  obtain ⟨n, -, heq⟩ | ⟨hnone, heq⟩ := entry_cases s a
  · rw [heq]
    exact h
  · rw [heq]
    have hold : ∀ b m, Function.update s.locks a (some s.next) b = some m →
        b = a ∧ m = s.next ∨ s.locks b = some m ∧ m < s.next := by
      intro b m hm
      by_cases hb : b = a
      · subst hb
        rw [Function.update_self] at hm
        exact .inl ⟨rfl, (Option.some.inj hm).symm⟩
      · rw [Function.update_of_ne hb] at hm
        exact .inr ⟨hm, h.fresh b m hm⟩
    refine ⟨?_, ?_, h.aligned, ?_, ?_⟩
    · intro b m hm
      obtain ⟨-, rfl⟩ | ⟨-, hlt⟩ := hold b m hm
      · exact Nat.lt_succ_self _
      · exact Nat.lt_succ_of_lt hlt
    · intro b c m hb hc
      obtain ⟨rfl, rfl⟩ | ⟨hb, hlt⟩ := hold b m hb
      · obtain ⟨rfl, -⟩ | ⟨-, hlt⟩ := hold c _ hc
        · rfl
        · exact absurd hlt (Nat.lt_irrefl _)
      · obtain ⟨-, rfl⟩ | ⟨hc, -⟩ := hold c m hc
        · exact absurd hlt (Nat.lt_irrefl _)
        · exact h.injective b c m hb hc
    · intro j arc harc
      have hentered := h.entered j arc harc
      have hne : arc.address ≠ a := by
        intro heq
        rw [heq, hnone] at hentered
        cases hentered
      exact (Function.update_of_ne hne ..).trans hentered
    · intro b m hm
      obtain ⟨rfl, rfl⟩ | ⟨hm, hlt⟩ := hold b m hm
      · refine (Function.update_self ..).trans ?_
        exact congrArg (1 + ·) h.clonesOf_next.symm
      · exact (Function.update_of_ne (Nat.ne_of_lt hlt) ..).trans (h.counted b m hm)

/-- A call makes the clone of its next address. -/
theorem ClonesInv.clone (h : s.ClonesInv addresses) {lockArcs : List LockArc} {a : UInt16}
    {rest : List UInt16} (hphase : s.phase i = .collect lockArcs (a :: rest)) {n : Nat}
    (hn : s.locks a = some n) :
    ((s.cloneArc n).setPhase i (.collect (lockArcs ++ [⟨a, n⟩]) rest)).ClonesInv addresses := by
  refine ⟨h.fresh, h.injective, ?_, ?_, ?_⟩
  · intro j
    by_cases hj : j = i
    · subst hj
      have haligned := h.aligned j
      rw [hphase] at haligned
      have heq : lockArcs.map (·.address) ++ a :: rest = sortedAddresses (addresses j) := haligned
      rw [phase_setPhase_self]
      show List.map LockArc.address (lockArcs ++ [⟨a, n⟩]) ++ rest = _
      rw [List.map_append, List.append_assoc]
      exact heq
    · rw [phase_setPhase_of_ne _ _ hj]
      exact h.aligned j
  · intro j arc harc
    by_cases hj : j = i
    · subst hj
      rw [phase_setPhase_self] at harc
      rcases List.mem_append.mp harc with harc | harc
      · exact h.entered j arc (by rw [hphase]; exact harc)
      · rw [List.mem_singleton.mp harc]
        exact hn
    · rw [phase_setPhase_of_ne _ _ hj] at harc
      exact h.entered j arc harc
  · intro b m hm
    have hcounted := h.counted b m hm
    have hupdate := clonesOf_update (s := s) (t := (s.cloneArc n).setPhase i
      (.collect (lockArcs ++ [⟨a, n⟩]) rest)) rfl m
    rw [hphase] at hupdate
    simp only [LockPhase.clones, List.map_append, List.count_append, List.map_cons, List.map_nil,
      List.count_singleton, beq_iff_eq] at hupdate
    show Function.update s.strong n (s.strong n + 1) m = _
    by_cases hmn : m = n
    · subst hmn
      rw [Function.update_self]
      rw [if_pos rfl] at hupdate
      omega
    · rw [Function.update_of_ne hmn]
      rw [if_neg fun heq => hmn heq.symm] at hupdate
      omega

/-- A call drops a clone. -/
theorem ClonesInv.drop (h : s.ClonesInv addresses) {arc : LockArc} {lockArcs : List LockArc}
    (hphase : s.phase i = .dropArcs (arc :: lockArcs)) :
    ((s.dropArc arc.mutex).setPhase i (.dropArcs lockArcs)).ClonesInv addresses := by
  refine ⟨h.fresh, h.injective, ?_, ?_, ?_⟩
  · intro j
    by_cases hj : j = i
    · subst hj
      have haligned := h.aligned j
      rw [hphase] at haligned
      rw [phase_setPhase_self]
      exact (List.suffix_cons _ _).trans haligned
    · rw [phase_setPhase_of_ne _ _ hj]
      exact h.aligned j
  · intro j arc' harc
    by_cases hj : j = i
    · subst hj
      rw [phase_setPhase_self] at harc
      exact h.entered j arc' (by rw [hphase]; exact List.mem_cons_of_mem _ harc)
    · rw [phase_setPhase_of_ne _ _ hj] at harc
      exact h.entered j arc' harc
  · intro b m hm
    have hcounted := h.counted b m hm
    have hupdate := clonesOf_update (s := s) (t := (s.dropArc arc.mutex).setPhase i
      (.dropArcs lockArcs)) rfl m
    rw [hphase] at hupdate
    simp only [LockPhase.clones, List.map_cons, List.count_cons, beq_iff_eq] at hupdate
    show Function.update s.strong arc.mutex (s.strong arc.mutex - 1) m = _
    by_cases hmn : m = arc.mutex
    · subst hmn
      rw [Function.update_self]
      rw [if_pos rfl] at hupdate
      omega
    · rw [Function.update_of_ne hmn]
      rw [if_neg fun heq => hmn heq.symm] at hupdate
      omega

omit [DecidableEq ι] in
/-- A mutex that only the map refers to has no clones. -/
theorem ClonesInv.unshared (h : s.ClonesInv addresses) {a : UInt16} {n : Nat}
    (hn : s.locks a = some n) (hone : s.strong n = 1) (j : ι) :
    ∀ arc ∈ (s.phase j).clones, arc.mutex ≠ n := by
  rintro arc harc rfl
  have hpos := clonesOf_pos harc
  have hcounted := h.counted a _ hn
  omega

omit [DecidableEq ι] [Fintype ι] in
/-- An entry is removed, or left. -/
theorem cleanEntry_cases (s : AddressLocks ι) (a : UInt16) :
    (∃ n, s.locks a = some n ∧ s.strong n = 1 ∧ s.cleanEntry a =
      { s.dropArc n with locks := Function.update s.locks a none }) ∨
      (∀ n, s.locks a = some n → s.strong n ≠ 1) ∧ s.cleanEntry a = s := by
  unfold cleanEntry
  cases hentry : s.locks a with
  | none =>
    refine .inr ⟨?_, rfl⟩
    intro n hn
    cases hn
  | some n =>
    by_cases hone : s.strong n = 1
    · exact .inl ⟨n, rfl, hone, if_pos hone⟩
    · refine .inr ⟨?_, if_neg hone⟩
      intro m hm
      rwa [← Option.some.inj hm]

/-- A call cleans up an entry. -/
theorem ClonesInv.clean (h : s.ClonesInv addresses) {a : UInt16} {rest : List UInt16}
    (hphase : s.phase i = .cleanup (a :: rest)) :
    ((s.cleanEntry a).setPhase i (.cleanup rest)).ClonesInv addresses := by
  have haligned : (LockPhase.cleanup rest).Aligned (sortedAddresses (addresses i)) := by
    have haligned := h.aligned i
    rw [hphase] at haligned
    exact (List.suffix_cons _ _).trans haligned
  obtain ⟨n, hn, hone, heq⟩ | ⟨-, heq⟩ := cleanEntry_cases s a
  · have hold : ∀ b m, Function.update s.locks a none b = some m → b ≠ a ∧ s.locks b = some m := by
      intro b m hm
      by_cases hb : b = a
      · subst hb
        rw [Function.update_self] at hm
        cases hm
      · rw [Function.update_of_ne hb] at hm
        exact ⟨hb, hm⟩
    have hclones : ∀ j, ((((s.cleanEntry a).setPhase i (.cleanup rest)).phase j).clones =
        (s.phase j).clones) := by
      intro j
      by_cases hj : j = i
      · subst hj
        rw [phase_setPhase_self, hphase]
        rfl
      · rw [phase_setPhase_of_ne _ _ hj, phase_cleanEntry]
    have hlocks : ((s.cleanEntry a).setPhase i (.cleanup rest)).locks =
        Function.update s.locks a none := by rw [heq]; rfl
    refine ⟨?_, ?_, ?_, ?_, ?_⟩
    · intro b m hm
      rw [hlocks] at hm
      rw [heq]
      exact h.fresh b m (hold b m hm).2
    · intro b c m hb hc
      rw [hlocks] at hb hc
      exact h.injective b c m (hold b m hb).2 (hold c m hc).2
    · intro j
      by_cases hj : j = i
      · subst hj
        rwa [phase_setPhase_self]
      · rw [phase_setPhase_of_ne _ _ hj, phase_cleanEntry]
        exact h.aligned j
    · intro j arc harc
      rw [hclones] at harc
      have hentered := h.entered j arc harc
      have hne : arc.address ≠ a := by
        intro haddress
        rw [haddress, hn] at hentered
        exact h.unshared hn hone j arc harc (Option.some.inj hentered).symm
      rw [hlocks, Function.update_of_ne hne]
      exact hentered
    · intro b m hm
      rw [hlocks] at hm
      obtain ⟨hb, hm⟩ := hold b m hm
      have hmn : m ≠ n := by
        rintro rfl
        exact hb (h.injective _ _ _ hm hn)
      have hsame : ((s.cleanEntry a).setPhase i (.cleanup rest)).clonesOf m = s.clonesOf m :=
        Finset.sum_congr rfl fun j _ => by rw [hclones]
      rw [hsame, heq]
      exact (Function.update_of_ne hmn ..).trans (h.counted b m hm)
  · rw [heq]
    exact h.move rfl rfl rfl rfl (by rw [hphase]; rfl) haligned

theorem ClonesInv.step (h : s.ClonesInv addresses) (hturn : Turn addresses s i t) :
    t.ClonesInv addresses := by
  cases hturn with
  | move p _ _ hsame =>
    exact h.move rfl rfl rfl rfl hsame.clones (hsame.aligned (h.aligned i))
  | ask p _ _ _ hsame =>
    exact h.move rfl rfl rfl rfl hsame.clones (hsame.aligned (h.aligned i))
  | leave p _ _ _ hsame =>
    exact h.move rfl rfl rfl rfl hsame.clones (hsame.aligned (h.aligned i))
  | @collect lockArcs a rest hphase =>
    exact (h.entry a).clone (by rw [phase_entry]; exact hphase) (locks_entry s a)
  | @lock guards arc rest hphase =>
    have haligned := h.aligned i
    rw [hphase] at haligned
    exact h.move rfl rfl rfl rfl (by rw [hphase]; rfl) haligned
  | @unlock released arc guards hphase =>
    have haligned := h.aligned i
    have hassoc : released ++ [arc] ++ guards = released ++ arc :: guards := List.append_assoc ..
    rw [hphase] at haligned
    refine h.move rfl rfl rfl rfl ?_ ?_
    · rw [hphase]
      exact hassoc
    · exact (congrArg (List.map LockArc.address) hassoc).trans haligned
  | drop hphase => exact h.drop hphase
  | clean hphase => exact h.clean hphase

end Clones

/-! ## The mutexes -/

section Mutexes

/-- The call keeps the mutexes it has locked or waits for. -/
theorem MutexInv.move (h : s.MutexInv) {p : LockPhase} (hmutex : t.mutex = s.mutex)
    (hphase : t.phase = Function.update s.phase i p) (hcontended : p.contended = (s.phase i).contended)
    (hguards : ∀ arc ∈ p.guards,
      arc ∈ (s.phase i).guards ∨ (s.mutex arc.mutex).owner = some i) : t.MutexInv := by
  refine ⟨hmutex ▸ h.wellFormed, ?_, ?_⟩
  · intro n j
    rw [hmutex, h.members n j, hphase]
    by_cases hj : j = i
    · subst hj
      rw [Function.update_self, hcontended]
    · rw [Function.update_of_ne hj]
  · intro j arc harc
    rw [hphase] at harc
    rw [hmutex]
    by_cases hj : j = i
    · subst hj
      rw [Function.update_self] at harc
      exact (hguards arc harc).elim (h.holder j arc) id
    · rw [Function.update_of_ne hj] at harc
      exact h.holder j arc harc

/-- The call asks for a mutex. -/
theorem MutexInv.lock (h : s.MutexInv) {guards rest : List LockArc} {arc : LockArc}
    (hphase : s.phase i = .acquire guards (arc :: rest))
    (hnew : arc.mutex ∉ guards.map (·.mutex)) :
    ({ s with mutex := Function.update s.mutex arc.mutex ((s.mutex arc.mutex).lock i) }.setPhase i
      (.waitMutex guards arc rest)).MutexInv := by
  have hi : i ∉ (s.mutex arc.mutex).members := by
    intro hmem
    have hcontended := (h.members arc.mutex i).mp hmem
    rw [hphase] at hcontended
    exact hnew hcontended
  refine ⟨?_, ?_, ?_⟩
  · intro n
    show (Function.update s.mutex arc.mutex ((s.mutex arc.mutex).lock i) n).WellFormed
    by_cases hn : n = arc.mutex
    · rw [hn, Function.update_self]
      exact (h.wellFormed _).lock hi
    · rw [Function.update_of_ne hn]
      exact h.wellFormed n
  · intro n j
    show j ∈ (Function.update s.mutex arc.mutex ((s.mutex arc.mutex).lock i) n).members ↔ _
    have hmembers : j ∈ (Function.update s.mutex arc.mutex ((s.mutex arc.mutex).lock i) n).members ↔
        j ∈ (s.mutex n).members ∨ j = i ∧ n = arc.mutex := by
      by_cases hn : n = arc.mutex
      · rw [hn, Function.update_self, FairMutex.mem_lock (h.wellFormed _), and_iff_left rfl]
      · rw [Function.update_of_ne hn, or_iff_left fun hand => hn hand.2]
    rw [hmembers, h.members n j]
    by_cases hj : j = i
    · subst hj
      rw [phase_setPhase_self, hphase, and_iff_right rfl]
      simp only [LockPhase.contended, LockPhase.guards, List.map_append, List.map_cons, List.map_nil,
        List.mem_append, List.mem_singleton]
    · rw [phase_setPhase_of_ne _ _ hj, or_iff_left fun hand => hj hand.1]
  · intro j arc' harc
    have howner : (s.mutex arc'.mutex).owner = some j := by
      by_cases hj : j = i
      · subst hj
        rw [phase_setPhase_self] at harc
        exact h.holder j arc' (by rw [hphase]; exact harc)
      · rw [phase_setPhase_of_ne _ _ hj] at harc
        exact h.holder j arc' harc
    show (Function.update s.mutex arc.mutex ((s.mutex arc.mutex).lock i) arc'.mutex).owner = some j
    by_cases hn : arc'.mutex = arc.mutex
    · rw [hn, Function.update_self]
      rw [hn] at howner
      exact FairMutex.owner_lock howner
    · rw [Function.update_of_ne hn]
      exact howner

/-- The call unlocks a mutex. -/
theorem MutexInv.unlock (h : s.MutexInv) {released guards : List LockArc} {arc : LockArc}
    (hphase : s.phase i = .release released (arc :: guards))
    (hnew : arc.mutex ∉ guards.map (·.mutex)) :
    ({ s with mutex := Function.update s.mutex arc.mutex (s.mutex arc.mutex).unlock }.setPhase i
      (.release (released ++ [arc]) guards)).MutexInv := by
  have howner : (s.mutex arc.mutex).owner = some i :=
    h.holder i arc (by rw [hphase]; exact List.mem_cons_self)
  refine ⟨?_, ?_, ?_⟩
  · intro n
    show (Function.update s.mutex arc.mutex (s.mutex arc.mutex).unlock n).WellFormed
    by_cases hn : n = arc.mutex
    · rw [hn, Function.update_self]
      exact (h.wellFormed _).unlock howner
    · rw [Function.update_of_ne hn]
      exact h.wellFormed n
  · intro n j
    show j ∈ (Function.update s.mutex arc.mutex (s.mutex arc.mutex).unlock n).members ↔ _
    have hmembers : j ∈ (Function.update s.mutex arc.mutex (s.mutex arc.mutex).unlock n).members ↔
        j ∈ (s.mutex n).members ∧ ¬ (j = i ∧ n = arc.mutex) := by
      by_cases hn : n = arc.mutex
      · rw [hn, Function.update_self, FairMutex.mem_unlock (h.wellFormed _) howner, and_iff_left rfl]
      · rw [Function.update_of_ne hn, and_iff_left fun hand => hn hand.2]
    rw [hmembers, h.members n j]
    by_cases hj : j = i
    · subst hj
      rw [phase_setPhase_self, hphase, and_iff_right rfl]
      simp only [LockPhase.contended, LockPhase.guards, List.map_cons, List.mem_cons]
      constructor
      · rintro ⟨hn | hn, hne⟩
        · exact absurd hn hne
        · exact hn
      · intro hn
        refine ⟨.inr hn, ?_⟩
        rintro rfl
        exact hnew hn
    · rw [phase_setPhase_of_ne _ _ hj, and_iff_left fun hand => hj hand.1]
  · intro j arc' harc
    have hheld : arc' ∈ (s.phase j).guards ∧ ¬ arc'.mutex = arc.mutex := by
      by_cases hj : j = i
      · subst hj
        rw [phase_setPhase_self] at harc
        refine ⟨by rw [hphase]; exact List.mem_cons_of_mem _ harc, ?_⟩
        intro hn
        exact hnew (hn ▸ List.mem_map_of_mem harc)
      · rw [phase_setPhase_of_ne _ _ hj] at harc
        refine ⟨harc, ?_⟩
        intro hn
        have howner' := h.holder j arc' harc
        rw [hn, howner] at howner'
        exact hj (Option.some.inj howner').symm
    exact (congrArg FairMutex.owner (Function.update_of_ne hheld.2 ..)).trans
      (h.holder j arc' hheld.1)

variable [Fintype ι]

omit [DecidableEq ι] in
/-- A mutex yet to be made is free. -/
theorem MutexInv.next_free (h : s.MutexInv) (hclones : s.ClonesInv addresses) :
    s.mutex s.next = ⟨none, []⟩ := by
  apply FairMutex.eq_free
  intro j hj
  obtain ⟨arc, harc, hnext⟩ := List.mem_map.mp ((h.members _ j).mp hj)
  have hlt := hclones.lt_next (LockPhase.contended_subset_clones harc)
  omega

omit [DecidableEq ι] in
/-- Making an entry changes no mutex. -/
theorem MutexInv.mutex_entry (h : s.MutexInv) (hclones : s.ClonesInv addresses) (a : UInt16) :
    (s.entry a).1.mutex = s.mutex := by
  obtain ⟨n, -, heq⟩ | ⟨-, heq⟩ := entry_cases s a
  · rw [heq]
  · rw [heq]
    show Function.update s.mutex s.next ⟨none, []⟩ = s.mutex
    rw [← h.next_free hclones, Function.update_eq_self]

theorem MutexInv.step (h : s.MutexInv) (hclones : s.ClonesInv addresses)
    (hturn : Turn addresses s i t) : t.MutexInv := by
  have hnodup := hclones.nodup i
  cases hturn with
  | move p _ _ hsame => exact h.move rfl rfl hsame.contended hsame.guards
  | ask p _ _ _ hsame => exact h.move rfl rfl hsame.contended hsame.guards
  | leave p _ _ _ hsame => exact h.move rfl rfl hsame.contended hsame.guards
  | @collect lockArcs a rest hphase =>
    refine h.move (h.mutex_entry hclones a) (congrArg (Function.update · i _) (phase_entry s a))
      (by rw [hphase]; rfl) ?_
    intro arc harc
    cases harc
  | @lock guards arc rest hphase =>
    rw [hphase] at hnodup
    simp only [LockPhase.clones, List.map_append, List.map_cons] at hnodup
    refine h.lock hphase fun hmem => ?_
    exact (List.nodup_append.mp hnodup).2.2 _ hmem _ List.mem_cons_self rfl
  | @unlock released arc guards hphase =>
    rw [hphase] at hnodup
    simp only [LockPhase.clones, List.map_append, List.map_cons] at hnodup
    exact h.unlock hphase (List.nodup_cons.mp (List.nodup_append.mp hnodup).2.1).1
  | drop hphase =>
    refine h.move rfl rfl (by rw [hphase]; rfl) ?_
    intro arc harc
    cases harc
  | @clean a rest hphase =>
    refine h.move (mutex_cleanEntry s a) (congrArg (Function.update · i _) (phase_cleanEntry s a))
      (by rw [hphase]; rfl) ?_
    intro arc harc
    cases harc

end Mutexes

/-! ## Who cleans up -/

section Pending

variable [Fintype ι]

omit [Fintype ι] in
/-- What is entered is what a call will look at, and what it no longer looks at another call will. -/
theorem PendingInv.move (h : s.PendingInv addresses) {p : LockPhase}
    (hlocks : ∀ a n, t.locks a = some n →
      s.locks a = some n ∨ a ∈ p.pending (sortedAddresses (addresses i)))
    (hphase : t.phase = Function.update s.phase i p)
    (hpending : ∀ a n, t.locks a = some n → a ∈ (s.phase i).pending (sortedAddresses (addresses i)) →
      a ∈ p.pending (sortedAddresses (addresses i)) ∨
        ∃ j, j ≠ i ∧ a ∈ (s.phase j).pending (sortedAddresses (addresses j))) :
    t.PendingInv addresses := by
  intro a n hn
  have hnew : a ∈ p.pending (sortedAddresses (addresses i)) ∨
      ∃ j, j ≠ i ∧ a ∈ (s.phase j).pending (sortedAddresses (addresses j)) := by
    obtain hold | hnew := hlocks a n hn
    · obtain ⟨j, hj⟩ := h a n hold
      by_cases hji : j = i
      · subst hji
        exact hpending a n hn hj
      · exact .inr ⟨j, hji, hj⟩
    · exact .inl hnew
  obtain hnew | ⟨j, hji, hj⟩ := hnew
  · exact ⟨i, by rw [hphase, Function.update_self]; exact hnew⟩
  · exact ⟨j, by rw [hphase, Function.update_of_ne hji]; exact hj⟩

omit [DecidableEq ι] in
/-- A call will look at the entries that it has clones of. -/
theorem ClonesInv.pending (h : s.ClonesInv addresses) {arc : LockArc}
    (harc : arc ∈ (s.phase i).clones) :
    arc.address ∈ (s.phase i).pending (sortedAddresses (addresses i)) := by
  have haddress := List.mem_map_of_mem (f := LockArc.address) harc
  have hsorted := (h.addresses_sublist i).subset haddress
  cases hphase : s.phase i with
  | collect lockArcs rest =>
    rw [hphase] at haddress
    exact haddress
  | acquire | waitMutex | body | release | dropArcs => exact hsorted
  | _ =>
    rw [hphase] at harc
    cases harc

/-- A call cleans up an entry: another call still looks at it, or it is gone. -/
theorem PendingInv.clean (h : s.PendingInv addresses) (hclones : s.ClonesInv addresses)
    {a : UInt16} {rest : List UInt16} (hphase : s.phase i = .cleanup (a :: rest)) :
    ((s.cleanEntry a).setPhase i (.cleanup rest)).PendingInv addresses := by
  obtain ⟨n, hn, hone, heq⟩ | ⟨hshared, heq⟩ := cleanEntry_cases s a
  · have hold : ∀ b m, (s.cleanEntry a).locks b = some m → b ≠ a ∧ s.locks b = some m := by
      intro b m hm
      rw [heq] at hm
      by_cases hb : b = a
      · subst hb
        exact absurd ((Function.update_self ..).symm.trans hm) (fun h => by cases h)
      · exact ⟨hb, (Function.update_of_ne hb ..).symm.trans hm⟩
    refine h.move (fun b m hm => .inl (hold b m hm).2)
      (congrArg (Function.update · i _) (phase_cleanEntry s a)) ?_
    intro b m hm hpending
    rw [hphase] at hpending
    exact .inl ((List.mem_cons.mp hpending).resolve_left (hold b m hm).1)
  · rw [heq]
    refine h.move (fun b m hm => .inl hm) rfl ?_
    intro b m hm hpending
    rw [hphase] at hpending
    rcases List.mem_cons.mp hpending with rfl | hpending
    · have hcounted := hclones.counted b m hm
      have hne : s.clonesOf m ≠ 0 := by
        have hone := hshared m hm
        omega
      obtain ⟨j, arc, harc, rfl⟩ := exists_clone hne
      obtain rfl := hclones.injective _ _ _ hm (hclones.entered j arc harc)
      refine .inr ⟨j, ?_, hclones.pending harc⟩
      rintro rfl
      rw [hphase] at harc
      cases harc
    · exact .inl hpending

theorem PendingInv.step (h : s.PendingInv addresses) (hclones : s.ClonesInv addresses)
    (hturn : Turn addresses s i t) : t.PendingInv addresses := by
  have haligned := hclones.aligned i
  cases hturn with
  | move p _ _ hsame =>
    exact h.move (fun _ _ hn => .inl hn) rfl fun a _ _ ha => .inl (hsame.pending haligned a ha)
  | ask p _ _ _ hsame =>
    exact h.move (fun _ _ hn => .inl hn) rfl fun a _ _ ha => .inl (hsame.pending haligned a ha)
  | leave p _ _ _ hsame =>
    exact h.move (fun _ _ hn => .inl hn) rfl fun a _ _ ha => .inl (hsame.pending haligned a ha)
  | @collect lockArcs a rest hphase =>
    have hpending : ∀ b, b = a ∨ b ∈ (s.phase i).pending (sortedAddresses (addresses i)) →
        b ∈ (LockPhase.collect (lockArcs ++ [⟨a, (s.entry a).2⟩]) rest).pending
          (sortedAddresses (addresses i)) := by
      intro b hb
      rw [hphase] at hb
      simp only [LockPhase.pending, List.map_append, List.map_cons, List.map_nil, List.mem_append,
        List.mem_singleton] at hb ⊢
      exact hb.symm
    refine h.move ?_ (congrArg (Function.update · i _) (phase_entry s a))
      fun b _ _ hb => .inl (hpending b (.inr hb))
    intro b m hm
    obtain ⟨n, -, heq⟩ | ⟨-, heq⟩ := entry_cases s a
    · rw [heq] at hm
      exact .inl hm
    · by_cases hb : b = a
      · exact .inr (hpending b (.inl hb))
      · rw [heq] at hm
        exact .inl ((Function.update_of_ne hb ..).symm.trans hm)
  | lock hphase =>
    refine h.move (fun _ _ hn => .inl hn) rfl fun _ _ _ ha => .inl ?_
    rw [hphase] at ha
    exact ha
  | unlock hphase =>
    refine h.move (fun _ _ hn => .inl hn) rfl fun _ _ _ ha => .inl ?_
    rw [hphase] at ha
    exact ha
  | drop hphase =>
    refine h.move (fun _ _ hn => .inl hn) rfl fun _ _ _ ha => .inl ?_
    rw [hphase] at ha
    exact ha
  | clean hphase => exact h.clean hclones hphase

end Pending

/-! ## Runs -/

section Runs

variable [Fintype ι]

theorem Inv.step (h : s.Inv addresses) (hstep : s.step addresses i = some t) : t.Inv addresses := by
  have hturn := step_turn hstep
  exact ⟨h.mapLock.step hturn, h.clones.step hturn, h.mutex.step h.clones hturn,
    h.pending.step h.clones hturn⟩

omit [DecidableEq ι] in
theorem inv_init (addresses : ι → List UInt16) : Inv addresses ({} : AddressLocks ι) := by
  refine ⟨⟨FairMutex.wellFormed_free, fun _ => ?_, ?_⟩, ⟨?_, ?_, ?_, ?_, ?_⟩,
    ⟨fun _ => FairMutex.wellFormed_free, fun _ _ => ?_, ?_⟩, ?_⟩
  · exact iff_of_false List.not_mem_nil Bool.false_ne_true
  · exact fun _ hin => by cases hin
  · exact fun _ _ hn => by cases hn
  · exact fun _ _ _ hn => by cases hn
  · exact fun _ => trivial
  · exact fun _ _ harc => by cases harc
  · exact fun _ _ hn => by cases hn
  · exact iff_of_false List.not_mem_nil List.not_mem_nil
  · exact fun _ _ harc => by cases harc
  · exact fun _ _ hn => by cases hn

/-- The invariant holds in every state that the calls can reach. -/
theorem inv_of_exec {schedule : List ι}
    (run : exec (AddressLocks.step addresses) {} schedule = some s) : s.Inv addresses :=
  exec_invariant' (fun _ _ _ h hstep => h.step hstep) run (inv_init addresses)

omit [DecidableEq ι] in
/-- A call in its body owns the mutex of each of its addresses. -/
theorem Inv.exists_owned (h : s.Inv addresses) (hbody : (s.phase i).inBody = true) {a : UInt16}
    (ha : a ∈ addresses i) : ∃ n, s.locks a = some n ∧ (s.mutex n).owner = some i := by
  have haligned := h.clones.aligned i
  have hentered := h.clones.entered i
  have hholder := h.mutex.holder i
  cases hphase : s.phase i with
  | body guards =>
    rw [hphase] at haligned hentered hholder
    have hmem : a ∈ guards.map (·.address) := by
      rw [(haligned : guards.map (·.address) = _)]
      exact mem_sortedAddresses.mpr ha
    obtain ⟨arc, harc, rfl⟩ := List.mem_map.mp hmem
    exact ⟨arc.mutex, hentered arc harc, hholder arc harc⟩
  | _ =>
    rw [hphase] at hbody
    cases hbody

omit [DecidableEq ι] in
/-- Two calls with a common address are not both in their body. -/
theorem Inv.exclusive (h : s.Inv addresses) (hi : (s.phase i).inBody = true)
    (hj : (s.phase j).inBody = true) {a : UInt16} (ha : a ∈ addresses i) (ha' : a ∈ addresses j) :
    i = j := by
  obtain ⟨n, hn, howner⟩ := h.exists_owned hi ha
  obtain ⟨m, hm, howner'⟩ := h.exists_owned hj ha'
  obtain rfl := Option.some.inj (hn.symm.trans hm)
  exact Option.some.inj (howner.symm.trans howner')

omit [Fintype ι] in
/-- A call that cannot go on has returned, or waits for a lock that it does not own. -/
theorem blocked_of_step_eq_none (hstep : s.step addresses i = none) :
    s.phase i = .done ∨ ((s.phase i).atMap = true ∧ s.mapLock.owner ≠ some i) ∨
      ∃ guards arc rest, s.phase i = .waitMutex guards arc rest ∧
        (s.mutex arc.mutex).owner ≠ some i := by
  cases hphase : s.phase i with
  | waitMap =>
    simp only [AddressLocks.step, hphase, ite_eq_right_iff, reduceCtorEq, imp_false] at hstep
    exact .inr (.inl ⟨rfl, hstep⟩)
  | waitCleanup =>
    simp only [AddressLocks.step, hphase, ite_eq_right_iff, reduceCtorEq, imp_false] at hstep
    exact .inr (.inl ⟨rfl, hstep⟩)
  | waitMutex guards arc rest =>
    simp only [AddressLocks.step, hphase, ite_eq_right_iff, reduceCtorEq, imp_false] at hstep
    exact .inr (.inr ⟨guards, arc, rest, rfl, hstep⟩)
  | done => exact .inl rfl
  | collect lockArcs rest => cases rest <;> simp only [AddressLocks.step, hphase, reduceCtorEq] at hstep
  | acquire guards rest => cases rest <;> simp only [AddressLocks.step, hphase, reduceCtorEq] at hstep
  | release released guards =>
    cases guards <;> simp only [AddressLocks.step, hphase, reduceCtorEq] at hstep
  | dropArcs lockArcs => cases lockArcs <;> simp only [AddressLocks.step, hphase, reduceCtorEq] at hstep
  | cleanup rest => cases rest <;> simp only [AddressLocks.step, hphase, reduceCtorEq] at hstep
  | start | body => simp only [AddressLocks.step, hphase, reduceCtorEq] at hstep

/-- The address of the mutex that a call waits for, counted from one. -/
def awaited : LockPhase → Nat
  | .waitMutex _ arc _ => arc.address.toNat + 1
  | _ => 0

omit [DecidableEq ι] in
/-- The owner of a mutex that another call waits for has locked it already, and waits for a higher
one if it waits. -/
theorem Inv.awaited_lt (h : s.Inv addresses) {guards : List LockArc} {arc : LockArc}
    {rest : List LockArc} (hphase : s.phase i = .waitMutex guards arc rest) {o : ι}
    (howner : (s.mutex arc.mutex).owner = some o) {guards' : List LockArc} {arc' : LockArc}
    {rest' : List LockArc} (hphase' : s.phase o = .waitMutex guards' arc' rest')
    (hwaits : (s.mutex arc'.mutex).owner ≠ some o) :
    awaited (s.phase i) < awaited (s.phase o) := by
  have hcontended := (h.mutex.members arc.mutex o).mp (FairMutex.mem_of_owner howner)
  rw [hphase'] at hcontended
  obtain ⟨locked, hlocked, hmutex⟩ := List.mem_map.mp hcontended
  have hguard : locked ∈ guards' := by
    rcases List.mem_append.mp hlocked with hlocked | hlocked
    · exact hlocked
    · rw [List.mem_singleton.mp hlocked] at hmutex
      rw [hmutex] at hwaits
      exact absurd howner hwaits
  have haddress : locked.address = arc.address := by
    have hentered := h.clones.entered i
    have hentered' := h.clones.entered o
    rw [hphase] at hentered
    rw [hphase'] at hentered'
    replace hentered := hentered arc (List.mem_append_right _ List.mem_cons_self)
    replace hentered' := hentered' locked (List.mem_append_left _ hguard)
    rw [hmutex] at hentered'
    exact h.clones.injective _ _ _ hentered' hentered
  have hsorted := pairwise_sortedAddresses (addresses o)
  have haligned := h.clones.aligned o
  rw [hphase'] at haligned
  rw [← (haligned : (guards' ++ arc' :: rest').map (·.address) = _), List.map_append,
    List.map_cons] at hsorted
  have hlt := (List.pairwise_append.mp hsorted).2.2 _ (List.mem_map_of_mem hguard) _
    List.mem_cons_self
  rw [haddress, UInt16.lt_iff_toNat_lt] at hlt
  rw [hphase, hphase']
  exact Nat.succ_lt_succ hlt

/-- No deadlock: while a call is unfinished, some call can go on. -/
theorem Inv.exists_step (h : s.Inv addresses) (hi : s.phase i ≠ .done) :
    ∃ j t, s.step addresses j = some t := by
  by_contra hnone
  have hblocked : ∀ j, s.phase j = .done ∨ ((s.phase j).atMap = true ∧ s.mapLock.owner ≠ some j) ∨
      ∃ guards arc rest, s.phase j = .waitMutex guards arc rest ∧
        (s.mutex arc.mutex).owner ≠ some j := by
    intro j
    apply blocked_of_step_eq_none
    cases hstep : s.step addresses j with
    | none => rfl
    | some t => exact absurd ⟨j, t, hstep⟩ hnone
  -- the owner of the lock of the map is not blocked
  have hmap : ∀ j, (s.phase j).atMap ≠ true := by
    intro j hj
    obtain ⟨o, howner⟩ := FairMutex.exists_owner h.mapLock.wellFormed ((h.mapLock.members j).mpr hj)
    have hat := (h.mapLock.members o).mp (FairMutex.mem_of_owner howner)
    obtain hdone | ⟨-, hne⟩ | ⟨_, _, _, hwait, -⟩ := hblocked o
    · rw [hdone] at hat
      cases hat
    · exact hne howner
    · rw [hwait] at hat
      cases hat
  have hwaiting : ∀ j, s.phase j ≠ .done → ∃ guards arc rest, s.phase j = .waitMutex guards arc rest ∧
      (s.mutex arc.mutex).owner ≠ some j := by
    intro j hj
    obtain hdone | ⟨hat, -⟩ | hwait := hblocked j
    · exact absurd hdone hj
    · exact absurd hat (hmap j)
    · exact hwait
  -- the call that waits for the highest address, and the owner of the mutex it waits for
  obtain ⟨j, -, hmax⟩ := Finset.exists_max_image Finset.univ (fun k => awaited (s.phase k))
    ⟨i, Finset.mem_univ i⟩
  have hj : s.phase j ≠ .done := by
    intro hdone
    have hle := hmax i (Finset.mem_univ i)
    obtain ⟨guards, arc, rest, hphase, -⟩ := hwaiting i hi
    rw [hphase, hdone] at hle
    exact Nat.not_succ_le_zero _ hle
  obtain ⟨guards, arc, rest, hphase, -⟩ := hwaiting j hj
  have hmember : j ∈ (s.mutex arc.mutex).members := by
    rw [h.mutex.members, hphase]
    exact List.mem_map_of_mem (List.mem_append_right _ (List.mem_singleton_self arc))
  obtain ⟨o, howner⟩ := FairMutex.exists_owner (h.mutex.wellFormed _) hmember
  have ho : s.phase o ≠ .done := by
    intro hdone
    have hcontended := (h.mutex.members arc.mutex o).mp (FairMutex.mem_of_owner howner)
    rw [hdone] at hcontended
    cases hcontended
  obtain ⟨guards', arc', rest', hphase', hwaits⟩ := hwaiting o ho
  exact Nat.not_lt.mpr (hmax o (Finset.mem_univ o)) (h.awaited_lt hphase howner hphase' hwaits)

/-- An entry is removed when no call has a clone of its mutex. -/
theorem Inv.unused_of_removed (h : s.Inv addresses) (hstep : s.step addresses i = some t)
    {a : UInt16} {n : Nat} (hn : s.locks a = some n) (hgone : t.locks a ≠ some n) (j : ι) :
    ∀ arc ∈ (s.phase j).clones, arc.mutex ≠ n := by
  cases step_turn hstep with
  | @collect lockArcs b rest hphase =>
    obtain ⟨m, -, heq⟩ | ⟨hnone, heq⟩ := entry_cases s b
    · rw [heq] at hgone
      exact absurd hn hgone
    · have hne : a ≠ b := by
        rintro rfl
        rw [hnone] at hn
        cases hn
      rw [heq] at hgone
      exact absurd ((Function.update_of_ne hne ..).trans hn) hgone
  | @clean b rest hphase =>
    obtain ⟨m, hm, hone, heq⟩ | ⟨-, heq⟩ := cleanEntry_cases s b
    · by_cases hab : a = b
      · subst hab
        obtain rfl := Option.some.inj (hm.symm.trans hn)
        exact h.clones.unshared hm hone j
      · rw [heq] at hgone
        exact absurd ((Function.update_of_ne hab ..).trans hn) hgone
    · rw [heq] at hgone
      exact absurd hn hgone
  | _ => exact absurd hn hgone

/-- **The protocol is correct**: in every state that calls with any lists of addresses can reach, two
calls with a common address are not both in their body; while a call is unfinished some call can go
on; a turn that removes an entry finds no call that has a clone of its mutex, holds it or waits for
it; and the map is empty once all calls have returned. -/
theorem addressLocks_correct (addresses : ι → List UInt16) {schedule : List ι}
    (run : exec (AddressLocks.step addresses) {} schedule = some s) :
    (∀ i j a, i ≠ j → a ∈ addresses i → a ∈ addresses j →
      ¬ ((s.phase i).inBody = true ∧ (s.phase j).inBody = true)) ∧
      ((∃ i, s.phase i ≠ .done) → ∃ i t, s.step addresses i = some t) ∧
      (∀ i t a n, s.step addresses i = some t → s.locks a = some n → t.locks a ≠ some n →
        ∀ j, (∀ arc ∈ (s.phase j).clones, arc.mutex ≠ n) ∧ j ∉ (s.mutex n).members) ∧
      ((∀ i, s.phase i = .done) → ∀ a, s.locks a = none) := by
  have h := inv_of_exec run
  refine ⟨?_, ?_, ?_, ?_⟩
  · rintro i j a hne ha ha' ⟨hi, hj⟩
    exact hne (h.exclusive hi hj ha ha')
  · rintro ⟨i, hi⟩
    exact h.exists_step hi
  · intro i t a n hstep hn hgone j
    have hunused := h.unused_of_removed hstep hn hgone j
    refine ⟨hunused, ?_⟩
    intro hmem
    obtain ⟨arc, harc, hmutex⟩ := List.mem_map.mp ((h.mutex.members n j).mp hmem)
    exact hunused arc (LockPhase.contended_subset_clones harc) hmutex
  · intro hdone a
    cases hentry : s.locks a with
    | none => rfl
    | some n =>
      obtain ⟨i, hi⟩ := h.pending a n hentry
      rw [hdone i] at hi
      cases hi

/-- A call of three addresses, two of them the same, is in its body, and a call of one of them waits for its
mutex. -/
theorem addressLocks_waiting :
    ∃ s, exec (AddressLocks.step fun call => if call then [7, 3, 7] else [3]) {}
        (List.replicate 10 true ++ List.replicate 5 false) = some s ∧
      s.phase true = .body [⟨3, 0⟩, ⟨7, 1⟩] ∧ s.phase false = .waitMutex [] ⟨3, 0⟩ [] ∧
      (∃ i t, s.step (fun call => if call then [7, 3, 7] else [3]) i = some t) ∧
      ¬ ((s.phase true).inBody = true ∧ (s.phase false).inBody = true) := by
  have hphases : (exec (AddressLocks.step fun call => if call then [7, 3, 7] else [3]) {}
      (List.replicate 10 true ++ List.replicate 5 false)).map (fun s => (s.phase true, s.phase false)) =
    some (.body [⟨3, 0⟩, ⟨7, 1⟩], .waitMutex [] ⟨3, 0⟩ []) := by decide
  obtain ⟨s, run, hphases⟩ := Option.map_eq_some_iff.mp hphases
  obtain ⟨htrue, hfalse⟩ := Prod.mk.inj hphases
  obtain ⟨hexclusive, hprogress, -, -⟩ := addressLocks_correct _ run
  refine ⟨s, run, htrue, hfalse, hprogress ⟨true, ?_⟩,
    hexclusive true false 3 (by decide) (by decide) (by decide)⟩
  rw [htrue]
  nofun

end Runs

end AddressLocks

end RsModbus.Slave
