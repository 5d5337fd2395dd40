import Mathlib.Data.List.Sort
import Mathlib.Data.List.Dedup
import RsModbus.Library.FairMutex
import RsModbus.Types

/-!
# The address locks (`slave.rs`)

`with_address_lock` keeps a map from addresses to reference-counted mutexes. A call collects a clone
of the mutex of each of its addresses, in ascending order and under the lock of the map, and enters
the mutexes that are missing. It then locks the mutexes one after the other, runs its body, unlocks
them, drops the clones, and takes the lock of the map again to remove the entries of its addresses
that nobody else has a clone of.

A step is one turn of one call: an `await` it passes, a mutex it asks for or unlocks, a clone it
makes or drops, an entry it looks at. Mutexes are numbered as they are made; `strong` is
`Arc::strong_count`. Both kinds of lock are `tokio::sync::Mutex`, which is fair.
-/

namespace RsModbus.Slave

open Library

/-- A clone of the mutex of an address. -/
structure LockArc where
  address : UInt16
  mutex : Nat
  deriving DecidableEq, Repr

/-- Where a call of `with_address_lock` is. -/
inductive LockPhase where
  /-- Not begun. -/
  | start
  /-- Waiting for the lock of the map. -/
  | waitMap
  /-- Collecting clones: those it has, and the addresses that are left. -/
  | collect (lockArcs : List LockArc) (rest : List UInt16)
  /-- Locking: the mutexes it has locked, and those that are left. -/
  | acquire (guards rest : List LockArc)
  /-- Waiting for a mutex. -/
  | waitMutex (guards : List LockArc) (arc : LockArc) (rest : List LockArc)
  /-- In the body. -/
  | body (guards : List LockArc)
  /-- Unlocking: the mutexes it has unlocked, and those that are left. -/
  | release (released guards : List LockArc)
  /-- Dropping the clones that are left. -/
  | dropArcs (lockArcs : List LockArc)
  /-- Waiting for the lock of the map, to clean up. -/
  | waitCleanup
  /-- Cleaning up: the addresses that are left. -/
  | cleanup (rest : List UInt16)
  /-- Returned. -/
  | done
  deriving DecidableEq, Repr

/-- The addresses of a call, sorted and without duplicates. -/
def sortedAddresses (addresses : List UInt16) : List UInt16 :=
  (addresses.insertionSort (· ≤ ·)).dedup

/-- The lock map, the mutexes ever made, and the calls. -/
structure AddressLocks (ι : Type) where
  phase : ι → LockPhase := fun _ => .start
  mapLock : FairMutex ι := ⟨none, []⟩
  locks : UInt16 → Option Nat := fun _ => none
  mutex : Nat → FairMutex ι := fun _ => ⟨none, []⟩
  strong : Nat → Nat := fun _ => 0
  next : Nat := 0

namespace AddressLocks

variable {ι : Type} [DecidableEq ι]

/-- Move a call to a phase. -/
def setPhase (s : AddressLocks ι) (i : ι) (phase : LockPhase) : AddressLocks ι :=
  { s with phase := Function.update s.phase i phase }

/-- `locks.entry(addr).or_insert_with(..)`, and the number of the mutex. -/
def entry (s : AddressLocks ι) (address : UInt16) : AddressLocks ι × Nat :=
  match s.locks address with
  | some n => (s, n)
  | none =>
    ({ s with
      locks := Function.update s.locks address (some s.next)
      mutex := Function.update s.mutex s.next ⟨none, []⟩
      strong := Function.update s.strong s.next 1
      next := s.next + 1 }, s.next)

/-- `Arc::clone`. -/
def cloneArc (s : AddressLocks ι) (n : Nat) : AddressLocks ι :=
  { s with strong := Function.update s.strong n (s.strong n + 1) }

/-- The drop of a clone. -/
def dropArc (s : AddressLocks ι) (n : Nat) : AddressLocks ι :=
  { s with strong := Function.update s.strong n (s.strong n - 1) }

/-- The clean-up of one address: the entry goes if the map has the only reference. -/
def cleanEntry (s : AddressLocks ι) (address : UInt16) : AddressLocks ι :=
  match s.locks address with
  | some n =>
    if s.strong n = 1 then
      { s.dropArc n with locks := Function.update s.locks address none }
    else s
  | none => s

/-- One turn of call `i`; `none` while it waits, and once it has returned. -/
def step (addresses : ι → List UInt16) (s : AddressLocks ι) (i : ι) : Option (AddressLocks ι) :=
  match s.phase i with
  | .start => some ({ s with mapLock := s.mapLock.lock i }.setPhase i .waitMap)
  | .waitMap =>
    if s.mapLock.owner = some i then
      some (s.setPhase i (.collect [] (sortedAddresses (addresses i))))
    else none
  | .collect lockArcs (a :: rest) =>
    let (s, n) := s.entry a
    some ((s.cloneArc n).setPhase i (.collect (lockArcs ++ [⟨a, n⟩]) rest))
  | .collect lockArcs [] =>
    some ({ s with mapLock := s.mapLock.unlock }.setPhase i (.acquire [] lockArcs))
  | .acquire guards (arc :: rest) =>
    some ({ s with mutex := Function.update s.mutex arc.mutex ((s.mutex arc.mutex).lock i) }.setPhase i
      (.waitMutex guards arc rest))
  | .acquire guards [] => some (s.setPhase i (.body guards))
  | .waitMutex guards arc rest =>
    if (s.mutex arc.mutex).owner = some i then
      some (s.setPhase i (.acquire (guards ++ [arc]) rest))
    else none
  | .body guards => some (s.setPhase i (.release [] guards))
  | .release released (arc :: guards) =>
    some ({ s with mutex := Function.update s.mutex arc.mutex (s.mutex arc.mutex).unlock }.setPhase i
      (.release (released ++ [arc]) guards))
  | .release released [] => some (s.setPhase i (.dropArcs released))
  | .dropArcs (arc :: lockArcs) => some ((s.dropArc arc.mutex).setPhase i (.dropArcs lockArcs))
  | .dropArcs [] => some ({ s with mapLock := s.mapLock.lock i }.setPhase i .waitCleanup)
  | .waitCleanup =>
    if s.mapLock.owner = some i then
      some (s.setPhase i (.cleanup (sortedAddresses (addresses i))))
    else none
  | .cleanup (a :: rest) => some ((s.cleanEntry a).setPhase i (.cleanup rest))
  | .cleanup [] => some ({ s with mapLock := s.mapLock.unlock }.setPhase i .done)
  | .done => none

end AddressLocks

end RsModbus.Slave
