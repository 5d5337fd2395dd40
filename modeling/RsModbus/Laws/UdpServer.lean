import RsModbus.Library.Leases
import RsModbus.Library.Runs
import RsModbus.Physical.UdpServer

/-!
# Laws of the remotes of a UDP server

* `Kept`: what the map, the timers and the log are to each other. The log is a lawful history of leases,
  of which the map is the outcome, and every generated id is in one place: an entry's, about to be
  announced, or announced.
* `Orderly`: where the receive task and `close` stand together. One of them ends the session, once.
* `remotes_kept`: the ids of datagrams and what is announced of them, in every run of a session.
-/

namespace RsModbus.Physical

open Library

variable {α κ : Type}

/-! ## The log -/

/-- An event as one of the lease of its address: a datagram uses it, the end of the entry gives it up. -/
def UdpEvent.lease : UdpEvent α κ → Option (Lease α κ (Option Nat))
  | .data event timer => some (.use event.response event.connection timer)
  | .evicted addr _ _ => some (.stop addr)
  | .drained addr _ => some (.stop addr)
  | _ => none

/-- The end of an entry of `addr`. -/
def UdpEvent.Ends (addr : α) : UdpEvent α κ → Prop
  | .evicted a _ _ => a = addr
  | .drained a _ => a = addr
  | _ => False

/-- The id an event announces the end of. -/
def UdpEvent.announced : UdpEvent α κ → Option κ
  | .connectionClose conn => some conn
  | _ => none

theorem stop_mem_leases (addr : α) (log : List (UdpEvent α κ)) :
    Lease.stop addr ∈ log.filterMap UdpEvent.lease ↔ ∃ e ∈ log, e.Ends addr := by
  rw [List.mem_filterMap]
  refine exists_congr fun e => and_congr_right fun _ => ?_
  cases e <;> simp [UdpEvent.lease, UdpEvent.Ends]

/-! ## The session -/

/-- The receive task is not ending the session. -/
def Receiver.Quiet : Receiver α → Prop
  | .draining => False
  | .releasing => False
  | _ => True

/-- `close` has aborted the receive task. -/
def Closer.Aborted : Closer → Prop
  | .draining => True
  | .releasing => True
  | .returned => True
  | _ => False

namespace UdpServer

variable {gen : Nat → κ} {s t : UdpServer α κ}

/-- Where the receive task and `close` stand together. -/
structure Orderly (s : UdpServer α κ) : Prop where
  unopened : s.opener ≠ .opened → s.isOpen = false ∧ s.closer = .idle ∧ s.receiver.Quiet
  running : s.isOpen = true → s.closer = .idle ∧ s.receiver.Quiet
  apart : s.closer ≠ .idle → s.receiver.Quiet
  aborted : s.closer.Aborted → s.receiver = .ended
  waiting : s.receiver ≠ .releasing → s.closer ≠ .releasing → s.releasing = ∅
  empty : s.receiver = .releasing ∨ s.closer = .releasing ∨ .close ∈ s.log → s.connections = ∅
  settled : .close ∈ s.log → s.receiver = .ended ∧ s.isOpen = false ∧ s.opener = .opened ∧
    (s.closer = .idle ∨ s.closer = .returned)
  taken : s.opener = .opened → s.isOpen = false → s.closer = .idle →
    ¬ s.receiver.Quiet ∨ .close ∈ s.log
  closed : s.closer = .returned → .close ∈ s.log

theorem Orderly.init (idleTimeoutMs : Nat) :
    Orderly ({ idleTimeoutMs := idleTimeoutMs } : UdpServer α κ) where
  unopened := fun _ => ⟨rfl, rfl, trivial⟩
  running := nofun
  apart := fun _ => trivial
  aborted := nofun
  waiting := fun _ _ => rfl
  empty := fun _ => rfl
  settled := nofun
  taken := nofun
  closed := nofun

/-- A step that moves neither task. -/
theorem Orderly.congr (h : Orderly s) (hopener : t.opener = s.opener) (hopen : t.isOpen = s.isOpen)
    (hreceiver : t.receiver = s.receiver) (hcloser : t.closer = s.closer)
    (hconnections : s.connections = ∅ → t.connections = ∅)
    (hreleasing : s.releasing = ∅ → t.releasing = ∅) (hlog : .close ∈ t.log ↔ .close ∈ s.log) :
    Orderly t := by
  constructor
  · rw [hopener, hopen, hcloser, hreceiver]
    exact h.unopened
  · rw [hopen, hcloser, hreceiver]
    exact h.running
  · rw [hcloser, hreceiver]
    exact h.apart
  · rw [hcloser, hreceiver]
    exact h.aborted
  · rw [hreceiver, hcloser]
    exact fun hr hc => hreleasing (h.waiting hr hc)
  · rw [hreceiver, hcloser, hlog]
    exact fun hend => hconnections (h.empty hend)
  · rw [hlog, hreceiver, hopen, hopener, hcloser]
    exact h.settled
  · rw [hlog, hreceiver, hopen, hopener, hcloser]
    exact h.taken
  · rw [hlog, hcloser]
    exact h.closed

/-- The receive task goes on to a point where it is not ending the session. -/
theorem Orderly.receive (h : Orderly s) (hstarted : s.receiver ≠ .ended) (hquiet : s.receiver.Quiet)
    (hopener : t.opener = s.opener) (hopen : t.isOpen = s.isOpen) (hcloser : t.closer = s.closer)
    (hreceiver : t.receiver.Quiet) (hreleasing : t.releasing = s.releasing)
    (hlog : .close ∈ t.log ↔ .close ∈ s.log) : Orderly t := by
  have hlive : .close ∉ s.log := fun hclose => hstarted (h.settled hclose).1
  have haborted : ¬ s.closer.Aborted := fun hcloser => hstarted (h.aborted hcloser)
  have hne : ∀ r : Receiver α, r.Quiet → r ≠ .releasing := by
    rintro r hr rfl
    exact hr
  constructor
  · rw [hopener, hopen, hcloser]
    exact fun hne => ⟨(h.unopened hne).1, (h.unopened hne).2.1, hreceiver⟩
  · rw [hopen, hcloser]
    exact fun hopen => ⟨(h.running hopen).1, hreceiver⟩
  · exact fun _ => hreceiver
  · rw [hcloser]
    exact fun habort => absurd habort haborted
  · rw [hreleasing, hcloser]
    exact fun _ hc => h.waiting (hne _ hquiet) hc
  · rw [hcloser, hlog]
    rintro (hr | hc | hclose)
    · exact absurd hr (hne _ hreceiver)
    · exact absurd (hc ▸ trivial) haborted
    · exact absurd hclose hlive
  · rw [hlog]
    exact fun hclose => absurd hclose hlive
  · rw [hopener, hopen, hcloser]
    intro ho hc hidle
    exact (h.taken ho hc hidle).elim (absurd hquiet) (absurd · hlive)
  · rw [hcloser]
    exact fun hc => absurd (hc ▸ trivial) haborted

/-- While the receive task ends the session, no `close` does. -/
theorem Orderly.ending (h : Orderly s) (hending : ¬ s.receiver.Quiet) :
    s.closer = .idle ∧ s.isOpen = false ∧ s.opener = .opened := by
  refine ⟨?_, ?_, ?_⟩
  · by_contra hne
    exact hending (h.apart hne)
  · by_contra hne
    exact hending (h.running (eq_true_of_ne_false hne)).2
  · by_contra hne
    exact hending (h.unopened hne).2.2

/-- While `close` ends the session, `is_open` is false. -/
theorem Orderly.closing (h : Orderly s) (hclosing : s.closer ≠ .idle) :
    s.isOpen = false ∧ s.opener = .opened := by
  constructor
  · by_contra hne
    exact hclosing (h.running (eq_true_of_ne_false hne)).1
  · by_contra hne
    exact hclosing (h.unopened hne).2.1

/-- The session is over for `open` and for `is_open`. -/
theorem Orderly.of_ended (hopener : t.opener = .opened) (hopen : t.isOpen = false)
    (hapart : t.closer ≠ .idle → t.receiver.Quiet) (haborted : t.closer.Aborted → t.receiver = .ended)
    (hwaiting : t.receiver ≠ .releasing → t.closer ≠ .releasing → t.releasing = ∅)
    (hempty : t.receiver = .releasing ∨ t.closer = .releasing ∨ .close ∈ t.log → t.connections = ∅)
    (hsettled : .close ∈ t.log → t.receiver = .ended ∧ (t.closer = .idle ∨ t.closer = .returned))
    (htaken : t.closer = .idle → ¬ t.receiver.Quiet ∨ .close ∈ t.log)
    (hreturned : t.closer = .returned → .close ∈ t.log) : Orderly t where
  unopened := fun hne => absurd hopener hne
  running := fun h => nomatch hopen.symm.trans h
  apart := hapart
  aborted := haborted
  waiting := hwaiting
  empty := hempty
  settled := fun hclose => ⟨(hsettled hclose).1, hopen, hopener, (hsettled hclose).2⟩
  taken := fun _ _ => htaken
  closed := hreturned

/-- Nothing is left to go through. -/
theorem sendClose_eq_some (hstep : s.sendClose = some t) :
    s.releasing = ∅ ∧ t = { s with log := .close :: s.log } := by
  unfold sendClose at hstep
  split at hstep
  next hnil => exact ⟨AList.ext (List.isEmpty_iff.mp hnil), (Option.some.inj hstep).symm⟩
  · cases hstep

theorem Orderly.close (h : Orderly s) (hstep : s.close gen = some t) : Orderly t := by
  unfold UdpServer.close at hstep
  split at hstep
  · cases hstep
  next hcloser =>
    cases hstep
    obtain ⟨hclosed, hopener⟩ := h.closing (by rw [hcloser]; nofun)
    have hlive : .close ∉ s.log := by
      intro hclose
      rcases (h.settled hclose).2.2.2 with hc | hc <;> cases hcloser.symm.trans hc
    have hquiet := h.apart (by rw [hcloser]; nofun)
    refine .of_ended hopener hclosed (fun _ => trivial) (fun _ => rfl) ?_ ?_ (absurd · hlive) nofun nofun
    · intro _ _
      refine h.waiting ?_ (by rw [hcloser]; nofun)
      intro hr
      rw [hr] at hquiet
      exact hquiet
    · rintro (hr | hc | hclose)
      · cases hr
      · cases hc
      · exact absurd hclose hlive
  next hcloser =>
    cases hstep
    obtain ⟨hclosed, hopener⟩ := h.closing (by rw [hcloser]; nofun)
    have hended : s.receiver = .ended := h.aborted (by rw [hcloser]; trivial)
    have hlive : .close ∉ (s.drain gen).log := by
      have hlive : .close ∉ s.log := by
        intro hclose
        rcases (h.settled hclose).2.2.2 with hc | hc <;> cases hcloser.symm.trans hc
      simpa [UdpServer.drain] using hlive
    refine .of_ended hopener hclosed (fun _ => ?_) (fun _ => hended) (fun _ hc => absurd rfl hc)
      (fun _ => rfl) (absurd · hlive) nofun nofun
    exact h.apart (by rw [hcloser]; nofun)
  next hcloser =>
    obtain ⟨u, hu, rfl⟩ := Option.map_eq_some_iff.mp hstep
    obtain ⟨hnil, rfl⟩ := sendClose_eq_some hu
    obtain ⟨hclosed, hopener⟩ := h.closing (by rw [hcloser]; nofun)
    have hended : s.receiver = .ended := h.aborted (by rw [hcloser]; trivial)
    refine .of_ended hopener hclosed (fun _ => ?_) (fun _ => hended) (fun _ _ => hnil)
      (fun _ => h.empty (.inr (.inl hcloser))) (fun _ => ⟨hended, .inr rfl⟩) nofun
      (fun _ => List.mem_cons_self)
    exact h.apart (by rw [hcloser]; nofun)
  · cases hstep

/-- `open` goes on. -/
theorem Orderly.opener (h : Orderly s) (hopener : s.opener ≠ .opened)
    (hnext : t.opener = .opened ∧ t.isOpen = true ∨ t.opener ≠ .opened ∧ t.isOpen = s.isOpen)
    (hreceiver : t.receiver = s.receiver) (hcloser : t.closer = s.closer)
    (hconnections : t.connections = s.connections) (hreleasing : t.releasing = s.releasing)
    (hlog : t.log = s.log) : Orderly t := by
  obtain ⟨hclosed, hidle, hquiet⟩ := h.unopened hopener
  have hlive : .close ∉ s.log := fun hclose => hopener (h.settled hclose).2.2.1
  constructor
  · intro hne
    rw [(hnext.resolve_left fun hopened => hne hopened.1).2, hcloser, hreceiver]
    exact ⟨hclosed, hidle, hquiet⟩
  · rw [hcloser, hreceiver]
    exact fun _ => ⟨hidle, hquiet⟩
  · rw [hreceiver]
    exact fun _ => hquiet
  · rw [hcloser, hreceiver]
    exact h.aborted
  · rw [hreceiver, hcloser, hreleasing]
    exact h.waiting
  · rw [hreceiver, hcloser, hlog, hconnections]
    exact h.empty
  · rw [hlog]
    exact fun hclose => absurd hclose hlive
  · intro hopened hopen
    rcases hnext with ⟨-, htrue⟩ | ⟨hne, -⟩
    · cases htrue.symm.trans hopen
    · exact absurd hopened hne
  · rw [hcloser]
    exact fun hc => nomatch hidle.symm.trans hc

theorem armed_abort {timer : Option Nat} {timer' : Nat} {p : α × Nat}
    (h : (s.abort timer).armed timer' = some p) : s.armed timer' = some p ∧ timer ≠ some timer' := by
  cases timer with
  | none => exact ⟨h, nofun⟩
  | some old =>
    have h : Function.update s.armed old none timer' = some p := h
    by_cases hold : timer' = old
    · rw [hold, Function.update_self] at h
      cases h
    · rw [Function.update_of_ne hold] at h
      exact ⟨h, fun heq => hold (Option.some.inj heq).symm⟩

end UdpServer

/-! ## The map -/

variable [DecidableEq α] {m : RemoteMap α} {a : α} {entry entry' : RemoteEntry}

/-- The connection ids of the entries. -/
def RemoteMap.conns (m : RemoteMap α) : List Nat := m.entries.map (·.2.conn)

theorem RemoteMap.perm_conns_erase (h : m.lookup a = some entry) :
    m.conns.Perm (entry.conn :: RemoteMap.conns (m.erase a)) := by
  have hentries : m.entries.Perm (⟨a, entry⟩ :: m.entries.kerase a) := by
    obtain ⟨entry', l₁, l₂, hl₁, heq, hkerase⟩ :=
      List.exists_of_kerase (AList.mem_keys.mp (AList.lookup_isSome.mp (by rw [h]; rfl)))
    have hfound : m.entries.dlookup a = some entry' := by
      rw [heq, List.dlookup_append, List.dlookup_eq_none.mpr hl₁, Option.none_or, List.dlookup_cons_eq]
    cases h.symm.trans hfound
    rw [hkerase]
    nth_rewrite 1 [heq]
    exact List.perm_middle
  exact hentries.map _

theorem RemoteMap.conns_insert_of_none (h : m.lookup a = none) :
    RemoteMap.conns (m.insert a entry) = entry.conn :: m.conns := by
  rw [conns, AList.entries_insert_of_notMem (AList.lookup_eq_none.mp h)]
  rfl

theorem RemoteMap.perm_conns_insert (h : m.lookup a = some entry) (hconn : entry'.conn = entry.conn) :
    (RemoteMap.conns (m.insert a entry')).Perm m.conns := by
  have hinsert : RemoteMap.conns (m.insert a entry') = entry.conn :: RemoteMap.conns (m.erase a) := by
    rw [conns, AList.entries_insert, List.map_cons, hconn]
    rfl
  rw [hinsert]
  exact (perm_conns_erase h).symm

theorem RemoteMap.mem_conns (h : m.lookup a = some entry) : entry.conn ∈ m.conns :=
  (perm_conns_erase h).mem_iff.mpr List.mem_cons_self

namespace UdpServer

/-- The history of the addresses' leases. -/
def leases (s : UdpServer α κ) : List (Lease α κ (Option Nat)) := s.log.filterMap UdpEvent.lease

/-- The ids announced by `connection_close`. -/
def announced (s : UdpServer α κ) : List κ := s.log.filterMap UdpEvent.announced

/-- The ids about to be announced: of what was drained, and of what a timer has removed. -/
def pending (s : UdpServer α κ) : List Nat := s.releasing.conns ++ s.evicting

/-- The ids not yet announced. -/
def unannounced (s : UdpServer α κ) : List Nat := s.connections.conns ++ s.pending

variable {gen : Nat → κ} {s t : UdpServer α κ}

/-- What a session keeps: every id is of one entry, drained or evicted and not announced, or announced
once; the log's leases are those of the map; a live timer is that of its entry; and what a timer evicted
was that of the latest datagram. -/
structure Kept (gen : Nat → κ) (s : UdpServer α κ) : Prop where
  accounted : (s.unannounced.map gen ++ s.announced).Perm ((List.range s.generated).map gen)
  lawful : Lease.Lawful s.leases
  held : ∀ a, Lease.held a s.leases =
    (s.connections.lookup a).map fun entry => (gen entry.conn, entry.idleTimer)
  used : ∀ a k timer, Lease.use a k timer ∈ s.leases → ∃ n < s.generated, gen n = k
  untimed : s.idleTimeoutMs = 0 → ∀ a entry, s.connections.lookup a = some entry → entry.idleTimer = none
  live : ∀ timer a conn, s.armed timer = some (a, conn) →
    s.connections.lookup a = some ⟨conn, some timer⟩ ∨ s.releasing.lookup a = some ⟨conn, some timer⟩
  evictions : ∀ newer older a k timer, s.log = newer ++ .evicted a k timer :: older →
    Lease.held a (older.filterMap UdpEvent.lease) = some (k, some timer)

theorem Kept.init (gen : Nat → κ) (idleTimeoutMs : Nat) :
    Kept gen ({ idleTimeoutMs := idleTimeoutMs } : UdpServer α κ) where
  accounted := .nil
  lawful := trivial
  held := fun _ => rfl
  used := nofun
  untimed := nofun
  live := nofun
  evictions := by
    intro newer older a k timer h
    cases List.nil_eq_append_iff.mp h with
    | intro _ h => cases h

/-- A log that no eviction was added to. -/
theorem evictions_append (events : List (UdpEvent α κ)) {log : List (UdpEvent α κ)}
    (h : ∀ newer older a k timer, log = newer ++ .evicted a k timer :: older →
      Lease.held a (older.filterMap UdpEvent.lease) = some (k, some timer))
    (hevents : ∀ a k timer, UdpEvent.evicted a k timer ∉ events) :
    ∀ newer older a k timer, events ++ log = newer ++ .evicted a k timer :: older →
      Lease.held a (older.filterMap UdpEvent.lease) = some (k, some timer) := by
  intro newer older a k timer heq
  obtain ⟨rest, hlog⟩ := exists_split_of_append heq (hevents a k timer)
  exact h rest older a k timer hlog

/-- A step that leaves the map and what was drained and evicted as they are. -/
theorem Kept.same (h : Kept gen s) (events : List (UdpEvent α κ)) (hidle : t.idleTimeoutMs = s.idleTimeoutMs)
    (hconnections : t.connections = s.connections) (hgenerated : t.generated = s.generated)
    (harmed : ∀ timer p, t.armed timer = some p → s.armed timer = some p) (hevicting : t.evicting = s.evicting)
    (hreleasing : t.releasing = s.releasing) (hlog : t.log = events ++ s.log)
    (hevents : ∀ event ∈ events, event.lease = none ∧ event.announced = none) : Kept gen t := by
  have hleases : t.leases = s.leases := by
    rw [leases, hlog, List.filterMap_append,
      List.filterMap_eq_nil_iff.mpr fun event he => (hevents event he).1]
    rfl
  have hannounced : t.announced = s.announced := by
    rw [announced, hlog, List.filterMap_append,
      List.filterMap_eq_nil_iff.mpr fun event he => (hevents event he).2]
    rfl
  constructor
  · rw [unannounced, pending, hconnections, hreleasing, hevicting, hannounced, hgenerated]
    exact h.accounted
  · rw [hleases]
    exact h.lawful
  · rw [hleases, hconnections]
    exact h.held
  · rw [hleases, hgenerated]
    exact h.used
  · rw [hidle, hconnections]
    exact h.untimed
  · intro timer a conn hlive
    rw [hconnections, hreleasing]
    exact h.live timer a conn (harmed timer _ hlive)
  · rw [hlog]
    exact evictions_append events h.evictions fun a k timer he => nomatch (hevents _ he).1

/-- A step of the tasks alone. -/
theorem Kept.move (h : Kept gen s) (hidle : t.idleTimeoutMs = s.idleTimeoutMs)
    (hconnections : t.connections = s.connections) (hgenerated : t.generated = s.generated)
    (harmed : t.armed = s.armed) (hevicting : t.evicting = s.evicting)
    (hreleasing : t.releasing = s.releasing) (hlog : t.log = s.log) : Kept gen t :=
  h.same [] hidle hconnections hgenerated (fun _ _ hlive => harmed ▸ hlive) hevicting hreleasing hlog nofun

/-! ## A datagram -/

/-- What `ensure_entry` makes of the map and the timers. -/
structure Ensured (s : UdpServer α κ) (addr : α) (conn : Nat) (timer : Option Nat) (t : UdpServer α κ) :
    Prop where
  lookup : ∀ a, t.connections.lookup a =
    if a = addr then some ⟨conn, timer⟩ else s.connections.lookup a
  conns : (∃ entry, s.connections.lookup addr = some entry ∧ entry.conn = conn ∧
      t.connections.conns.Perm s.connections.conns ∧ t.generated = s.generated) ∨
    (s.connections.lookup addr = none ∧ conn = s.generated ∧
      t.connections.conns.Perm (conn :: s.connections.conns) ∧ t.generated = s.generated + 1)
  armed : ∀ timer' a conn', t.armed timer' = some (a, conn') →
    timer = some timer' ∧ a = addr ∧ conn' = conn ∨
    s.armed timer' = some (a, conn') ∧
      ∀ entry, s.connections.lookup addr = some entry → entry.idleTimer ≠ some timer'
  untimed : s.idleTimeoutMs = 0 → timer = none
  rest : t.releasing = s.releasing ∧ t.evicting = s.evicting ∧ t.log = s.log ∧
    t.idleTimeoutMs = s.idleTimeoutMs
  tasks : t.opener = s.opener ∧ t.isOpen = s.isOpen ∧ t.closer = s.closer

/-- An entry gets a new timer in the place of its own. -/
theorem ensured_arm (hentry : s.connections.lookup a = some entry) (htimed : s.idleTimeoutMs ≠ 0) :
    Ensured s a entry.conn (some s.timers) ((s.abort entry.idleTimer).arm a entry.conn) := by
  refine ⟨?_, .inl ⟨entry, hentry, rfl, RemoteMap.perm_conns_insert hentry rfl, rfl⟩, ?_,
    fun h => absurd h htimed, ⟨rfl, rfl, rfl, rfl⟩, rfl, rfl, rfl⟩
  · intro a'
    show AList.lookup a' (s.connections.insert a ⟨entry.conn, some s.timers⟩) = _
    by_cases ha : a' = a
    · rw [if_pos ha, ha, AList.lookup_insert]
    · rw [if_neg ha, AList.lookup_insert_ne ha]
  · intro timer' a' conn' h
    have h : Function.update (s.abort entry.idleTimer).armed s.timers (some (a, entry.conn)) timer' =
      some (a', conn') := h
    by_cases htimer : timer' = s.timers
    · rw [htimer, Function.update_self] at h
      cases h
      exact .inl ⟨by rw [htimer], rfl, rfl⟩
    · rw [Function.update_of_ne htimer] at h
      obtain ⟨harmed, hne⟩ := armed_abort h
      refine .inr ⟨harmed, ?_⟩
      intro entry' hentry'
      cases hentry.symm.trans hentry'
      exact hne

/-- Without a timeout the entry stays as it is. -/
theorem ensured_keep (hentry : s.connections.lookup a = some entry) (htimer : entry.idleTimer = none) :
    Ensured s a entry.conn none s := by
  refine ⟨?_, .inl ⟨entry, hentry, rfl, .rfl, rfl⟩, ?_, fun _ => rfl, ⟨rfl, rfl, rfl, rfl⟩, rfl, rfl, rfl⟩
  · intro a'
    by_cases ha : a' = a
    · rw [if_pos ha, ha, hentry, ← htimer]
    · rw [if_neg ha]
  · intro timer' a' conn' h
    refine .inr ⟨h, ?_⟩
    intro entry' hentry'
    cases hentry.symm.trans hentry'
    rw [htimer]
    nofun

theorem lookup_insertNew : (s.insertNew a).connections.lookup a = some ⟨s.generated, none⟩ :=
  AList.lookup_insert _

/-- What is made of a new entry is made of a map without one. -/
theorem Ensured.of_insertNew {timer : Option Nat} (hnone : s.connections.lookup a = none)
    (h : Ensured (s.insertNew a) a s.generated timer t) : Ensured s a s.generated timer t := by
  refine ⟨?_, .inr ⟨hnone, rfl, ?_⟩, ?_, h.untimed, h.rest, h.tasks⟩
  · intro a'
    rw [h.lookup a']
    by_cases ha : a' = a
    · rw [if_pos ha, if_pos ha]
    · rw [if_neg ha, if_neg ha]
      exact AList.lookup_insert_ne ha
  · rcases h.conns with ⟨entry, -, -, hperm, hgenerated⟩ | ⟨hnone', -⟩
    · have hconns : (s.insertNew a).connections.conns = s.generated :: s.connections.conns :=
        RemoteMap.conns_insert_of_none hnone
      rw [hconns] at hperm
      exact ⟨hperm, hgenerated⟩
    · cases lookup_insertNew.symm.trans hnone'
  · intro timer' a' conn' harmed
    refine (h.armed timer' a' conn' harmed).imp_right fun hold => ⟨hold.1, ?_⟩
    rw [hnone]
    nofun

theorem ensured (h : Kept gen s) (addr : α) :
    Ensured s addr (s.ensureEntry addr).1 (s.ensureEntry addr).2.1 (s.ensureEntry addr).2.2 := by
  by_cases hidle : s.idleTimeoutMs = 0
  · have htimeout : ¬ s.idleTimeoutMs > 0 := by omega
    cases hlookup : s.connections.lookup addr with
    | some entry =>
      simp only [ensureEntry, UdpServer.entry, hlookup, if_neg htimeout]
      exact ensured_keep hlookup (h.untimed hidle addr entry hlookup)
    | none =>
      have htimeout : ¬ (s.insertNew addr).idleTimeoutMs > 0 := htimeout
      simp only [ensureEntry, UdpServer.entry, hlookup, if_neg htimeout]
      exact .of_insertNew hlookup (ensured_keep (s := s.insertNew addr) lookup_insertNew rfl)
  · have htimeout : s.idleTimeoutMs > 0 := by omega
    cases hlookup : s.connections.lookup addr with
    | some entry =>
      simp only [ensureEntry, UdpServer.entry, hlookup, if_pos htimeout]
      exact ensured_arm hlookup hidle
    | none =>
      have htimeout : (s.insertNew addr).idleTimeoutMs > 0 := htimeout
      simp only [ensureEntry, UdpServer.entry, hlookup, if_pos htimeout]
      exact .of_insertNew hlookup (ensured_arm (s := s.insertNew addr) lookup_insertNew hidle)

/-- The id of an entry was generated. -/
theorem Kept.conn_lt (h : Kept gen s) (hgen : Function.Injective gen)
    (hentry : s.connections.lookup a = some entry) : entry.conn < s.generated := by
  have hmem : gen entry.conn ∈ s.unannounced.map gen ++ s.announced :=
    List.mem_append_left _ (List.mem_map_of_mem
      (List.mem_append_left _ (RemoteMap.mem_conns hentry)))
  obtain ⟨n, hn, heq⟩ := List.mem_map.mp (h.accounted.mem_iff.mp hmem)
  rw [← hgen heq]
  exact List.mem_range.mp hn

/-- The data event of a datagram. -/
theorem Kept.data (h : Kept gen s) (hgen : Function.Injective gen) {addr : α} {conn : Nat}
    {timer : Option Nat} {data : Bytes} (hensured : Ensured s addr conn timer t) :
    Kept gen { t with log := .data ⟨data, addr, gen conn⟩ timer :: t.log } := by
  obtain ⟨hreleasing, hevicting, hlog, hidle⟩ := hensured.rest
  have hleases : UdpServer.leases { t with log := .data ⟨data, addr, gen conn⟩ timer :: t.log } =
      .use addr (gen conn) timer :: s.leases := by
    rw [leases, hlog]
    rfl
  have hannounced : UdpServer.announced { t with log := .data ⟨data, addr, gen conn⟩ timer :: t.log } =
      s.announced := by
    rw [announced, hlog]
    rfl
  constructor
  · rw [unannounced, pending, hannounced, hreleasing, hevicting]
    rcases hensured.conns with ⟨entry, -, -, hperm, hgenerated⟩ | ⟨-, rfl, hperm, hgenerated⟩
    · rw [hgenerated]
      exact .trans (.append_right _ (.map _ (.append_right _ hperm))) h.accounted
    · have hrange : (List.range (s.generated + 1)).map gen =
          (List.range s.generated).map gen ++ [gen s.generated] := by
        rw [List.range_succ, List.map_append, List.map_singleton]
      rw [hgenerated, hrange]
      refine .trans (.append_right _ (.map _ (.append_right _ hperm))) ?_
      exact (h.accounted.cons (gen s.generated)).trans (List.perm_append_singleton _ _).symm
  · rw [hleases]
    refine ⟨?_, h.lawful⟩
    rcases hensured.conns with ⟨entry, hentry, rfl, -⟩ | ⟨hnone, rfl, -⟩
    · have hheld : Lease.held addr s.leases = some (gen entry.conn, entry.idleTimer) := by
        rw [h.held, hentry]
        rfl
      exact Lease.allowed_of_held hheld
    · apply Lease.allowed_of_fresh
      · rw [h.held, hnone]
        rfl
      · intro a timer' hmem
        obtain ⟨n, hn, heq⟩ := h.used a _ timer' hmem
        exact absurd (hgen heq) (Nat.ne_of_lt hn)
  · intro a
    rw [hleases]
    show _ = (t.connections.lookup a).map _
    rw [hensured.lookup a]
    by_cases ha : a = addr
    · rw [ha, Lease.held_use_self, if_pos rfl]
      rfl
    · rw [Lease.held_use_ne ha, if_neg ha]
      exact h.held a
  · intro a k timer' hmem
    rw [hleases] at hmem
    show ∃ n < t.generated, gen n = k
    have hgenerated : s.generated ≤ t.generated ∧ conn < t.generated := by
      rcases hensured.conns with ⟨entry, hentry, rfl, -, hsame⟩ | ⟨-, rfl, -, hnext⟩
      · exact ⟨Nat.le_of_eq hsame.symm, hsame ▸ h.conn_lt hgen hentry⟩
      · exact ⟨by omega, by omega⟩
    cases hmem with
    | head => exact ⟨conn, hgenerated.2, rfl⟩
    | tail _ hmem =>
      obtain ⟨n, hn, heq⟩ := h.used a k timer' hmem
      exact ⟨n, Nat.lt_of_lt_of_le hn hgenerated.1, heq⟩
  · intro hzero a entry hentry
    have hzero : s.idleTimeoutMs = 0 := hidle.symm.trans hzero
    rw [show t.connections.lookup a = _ from hensured.lookup a] at hentry
    split at hentry
    · cases hentry
      exact hensured.untimed hzero
    · exact h.untimed hzero a entry hentry
  · intro timer' a conn' harmed
    show t.connections.lookup a = _ ∨ t.releasing.lookup a = _
    rw [hensured.lookup a, hreleasing]
    rcases hensured.armed timer' a conn' harmed with ⟨rfl, rfl, rfl⟩ | ⟨hold, hother⟩
    · exact .inl (if_pos rfl)
    · by_cases ha : a = addr
      · subst ha
        exact (h.live timer' a conn' hold).imp_left fun hfound => absurd rfl (hother _ hfound)
      · rw [if_neg ha]
        exact h.live timer' a conn' hold
  · exact evictions_append [.data ⟨data, addr, gen conn⟩ timer] (hlog ▸ h.evictions) (by simp)

theorem Kept.deliver (h : Kept gen s) (hgen : Function.Injective gen) (addr : α) (data : Bytes) :
    Kept gen (s.deliver gen addr data) :=
  h.data hgen (ensured h addr)

/-! ## The ends of entries -/

theorem Kept.drain (h : Kept gen s) (hreleasing : s.releasing = ∅) : Kept gen (s.drain gen) := by
  have hleases : (s.drain gen).leases = s.connections.keys.map Lease.stop ++ s.leases := by
    simp only [leases, UdpServer.drain, List.filterMap_append, List.filterMap_map, AList.keys, List.keys,
      List.map_map]
    have hstop : UdpEvent.lease ∘ (fun e : Sigma fun _ : α => RemoteEntry =>
        UdpEvent.drained e.1 (gen e.2.conn)) = some ∘ (Lease.stop ∘ Sigma.fst) := rfl
    rw [hstop, List.filterMap_eq_map]
  have hannounced : (s.drain gen).announced = s.announced := by
    simp only [announced, UdpServer.drain, List.filterMap_append, List.filterMap_map]
    exact (congrArg (· ++ _) (List.filterMap_eq_nil_iff.mpr fun _ _ => rfl)).trans (List.nil_append _)
  have hunannounced : (s.drain gen).unannounced = s.unannounced := by
    have hnil : s.releasing.conns = [] := by
      rw [hreleasing]
      rfl
    rw [unannounced, unannounced, pending, pending, hnil, List.nil_append]
    rfl
  constructor
  · rw [hannounced, hunannounced]
    exact h.accounted
  · rw [hleases]
    exact (Lease.lawful_stops _).mpr h.lawful
  · intro a
    rw [hleases, Lease.held_stops]
    split
    · rfl
    next hkey =>
      have hnone : s.connections.lookup a = none := AList.lookup_eq_none.mpr hkey
      rw [h.held, hnone]
      rfl
  · intro a k timer hmem
    rw [hleases] at hmem
    exact h.used a k timer ((Lease.use_mem_stops _).mp hmem)
  · intro _ a entry hentry
    cases hentry
  · intro timer a conn harmed
    refine (h.live timer a conn harmed).elim .inr fun hold => ?_
    rw [hreleasing] at hold
    cases hold
  · exact evictions_append _ h.evictions (by simp)

/-- An id is announced. -/
theorem accounted_announce {unannounced rest : List Nat} {announced generated : List κ} {conn : Nat}
    (h : (unannounced.map gen ++ announced).Perm generated) (hperm : unannounced.Perm (conn :: rest)) :
    (rest.map gen ++ gen conn :: announced).Perm generated :=
  List.perm_middle.trans (((hperm.map gen).symm.append_right announced).trans h)

/-- A drained entry is announced. -/
theorem Kept.release (h : Kept gen s) (hstep : s.release gen a = some t) : Kept gen t := by
  obtain ⟨entry, hentry, rfl⟩ := Option.map_eq_some_iff.mp hstep
  constructor
  · refine accounted_announce h.accounted ?_
    refine .trans (.append_left _ (.append_right _ (RemoteMap.perm_conns_erase hentry))) ?_
    exact List.perm_middle
  · exact h.lawful
  · exact h.held
  · exact h.used
  · exact h.untimed
  · intro timer a' conn harmed
    obtain ⟨harmed, hne⟩ := armed_abort harmed
    refine (h.live timer a' conn harmed).imp_right fun hold => ?_
    by_cases ha : a' = a
    · subst ha
      cases hentry.symm.trans hold
      exact absurd rfl hne
    · exact (AList.lookup_erase_ne ha).trans hold
  · exact evictions_append [.connectionClose (gen entry.conn)] h.evictions (by simp)

/-- An evicted entry is announced. -/
theorem Kept.announce (h : Kept gen s) {conn : Nat} (hconn : conn ∈ s.evicting) :
    Kept gen ({ s with evicting := s.evicting.erase conn }.sendConnectionClose gen conn) := by
  constructor
  · refine accounted_announce h.accounted ?_
    refine .trans (.append_left _ (.append_left _ (List.perm_cons_erase hconn))) ?_
    exact .trans (.append_left _ List.perm_middle) List.perm_middle
  · exact h.lawful
  · exact h.held
  · exact h.used
  · exact h.untimed
  · exact h.live
  · exact evictions_append [.connectionClose (gen conn)] h.evictions (by simp)

/-- No id is both that of an entry and that of a drained one. -/
theorem Kept.ne_of_releasing (h : Kept gen s) (hgen : Function.Injective gen) {a' : α}
    (hentry : s.connections.lookup a = some entry) (hentry' : s.releasing.lookup a' = some entry') :
    entry.conn ≠ entry'.conn := by
  have hnodup : (s.unannounced.map gen ++ s.announced).Nodup :=
    h.accounted.nodup_iff.mpr (List.nodup_range.map hgen)
  have hnodup : s.unannounced.Nodup := .of_map _ (List.nodup_append.mp hnodup).1
  exact (List.nodup_append.mp hnodup).2.2 _ (RemoteMap.mem_conns hentry) _
    (List.mem_append_left _ (RemoteMap.mem_conns hentry'))

/-- The entry of a timer's address, if it has the id the timer has captured, has that timer. -/
theorem Kept.own_timer (h : Kept gen s) (hgen : Function.Injective gen) {timer : Nat}
    (harmed : s.armed timer = some (a, entry.conn)) (hentry : s.connections.lookup a = some entry) :
    entry.idleTimer = some timer := by
  rcases h.live timer a entry.conn harmed with hlive | hdrained
  · exact congrArg RemoteEntry.idleTimer (Option.some.inj (hentry.symm.trans hlive))
  · exact (h.ne_of_releasing hgen hentry hdrained rfl).elim

/-- A timer has slept. -/
theorem Kept.expire (h : Kept gen s) (hgen : Function.Injective gen) {timer : Nat}
    (hstep : s.expire gen timer = some t) : Kept gen t := by
  obtain ⟨⟨a, conn⟩, harmed, ht⟩ := Option.map_eq_some_iff.mp hstep
  have hsame : Kept gen (s.abort (some timer)) :=
    h.same [] rfl rfl rfl (fun _ _ hlive => (armed_abort hlive).1) rfl rfl rfl nofun
  dsimp only [abort] at ht
  cases hlookup : s.connections.lookup a with
  | none =>
    rw [hlookup] at ht
    exact ht ▸ hsame
  | some entry =>
    simp only [hlookup] at ht
    split at ht
    next hconn =>
      subst hconn
      have htimer := h.own_timer hgen harmed hlookup
      cases ht
      constructor
      · refine .trans (.append_right _ (.map _ ?_)) h.accounted
        refine .trans (.append_left _ List.perm_middle) (.trans List.perm_middle ?_)
        exact .append_right _ (RemoteMap.perm_conns_erase hlookup).symm
      · exact h.lawful
      · intro a'
        show Lease.held a' (.stop a :: s.leases) = (AList.lookup a' (s.connections.erase a)).map _
        by_cases ha : a' = a
        · rw [ha, Lease.held_stop_self, AList.lookup_erase]
          rfl
        · rw [Lease.held_stop_ne ha, AList.lookup_erase_ne ha]
          exact h.held a'
      · intro a' k timer' hmem
        have hmem : Lease.use a' k timer' ∈ Lease.stop a :: s.leases := hmem
        simp only [List.mem_cons, reduceCtorEq, false_or] at hmem
        exact h.used a' k timer' hmem
      · intro hzero
        cases htimer.symm.trans (h.untimed hzero a entry hlookup)
      · intro timer' a' conn' hlive
        have hlive : (s.abort (some timer)).armed timer' = some (a', conn') := hlive
        obtain ⟨hlive, hne⟩ := armed_abort hlive
        refine (h.live timer' a' conn' hlive).imp_left fun hold => ?_
        by_cases ha : a' = a
        · subst ha
          cases hlookup.symm.trans hold
          exact absurd htimer.symm hne
        · exact (AList.lookup_erase_ne ha).trans hold
      · intro newer older a' k timer' heq
        rcases List.cons_eq_append_iff.mp heq with ⟨rfl, hcons⟩ | ⟨rest, rfl, hlog⟩
        · cases hcons
          exact (h.held a).trans (by rw [hlookup, ← htimer]; rfl)
        · exact h.evictions rest older a' k timer' hlog
    · exact ht ▸ hsame

/-! ## The tasks -/

theorem Orderly.deliver (h : Orderly s) (hkept : Kept gen s) {addr : α} {data : Bytes}
    (hreceiver : s.receiver = .holding addr data) :
    Orderly { s.deliver gen addr data with receiver := .receiving } := by
  obtain ⟨hreleasing, -, hlog, -⟩ := (ensured hkept addr).rest
  obtain ⟨hopener, hopen, hcloser⟩ := (ensured hkept addr).tasks
  refine h.receive (by rw [hreceiver]; nofun) (by rw [hreceiver]; trivial) hopener hopen hcloser trivial
    hreleasing ?_
  show UdpEvent.close ∈ UdpEvent.data _ _ :: (s.ensureEntry addr).2.2.log ↔ _
  rw [hlog]
  simp

theorem Orderly.recv (h : Orderly s) (hkept : Kept gen s) (hstep : s.recv gen = some t) : Orderly t := by
  have hnotover : s.receiver ≠ .ended → .close ∉ s.log := fun hne hclose => hne (h.settled hclose).1
  unfold UdpServer.recv at hstep
  split at hstep
  · cases hstep
  next addr data hreceiver =>
    cases hstep
    exact h.deliver hkept hreceiver
  next hreceiver =>
    cases hstep
    cases hopen : s.isOpen with
    | false =>
      exact h.receive (by rw [hreceiver]; nofun) (by rw [hreceiver]; trivial) rfl hopen.symm rfl trivial
        rfl .rfl
    | true =>
      have hidle := (h.running hopen).1
      have hopener : s.opener = .opened := by
        by_contra hne
        cases hopen.symm.trans (h.unopened hne).1
      refine .of_ended hopener rfl (absurd hidle) ?_ ?_ ?_ ?_ (fun _ => .inl id) ?_
      · intro habort
        cases hreceiver.symm.trans (h.aborted habort)
      · exact fun _ hc => h.waiting (by rw [hreceiver]; nofun) hc
      · rintro (hr | hc | hclose)
        · cases hr
        · cases hidle.symm.trans hc
        · exact absurd hclose (hnotover (by rw [hreceiver]; nofun))
      · exact fun hclose => absurd hclose (hnotover (by rw [hreceiver]; nofun))
      · exact fun hc => nomatch hidle.symm.trans hc
  next hreceiver =>
    cases hstep
    obtain ⟨hidle, hclosed, hopener⟩ := h.ending (by rw [hreceiver]; exact id)
    have hlive : .close ∉ (s.drain gen).log := by
      simpa [UdpServer.drain] using hnotover (by rw [hreceiver]; nofun)
    refine .of_ended hopener hclosed (absurd hidle) ?_ (absurd rfl) (fun _ => rfl) (absurd · hlive)
      (fun _ => .inl id) (fun hc => nomatch hidle.symm.trans hc)
    intro habort
    cases hreceiver.symm.trans (h.aborted habort)
  next hreceiver =>
    obtain ⟨u, hu, rfl⟩ := Option.map_eq_some_iff.mp hstep
    obtain ⟨hnil, rfl⟩ := sendClose_eq_some hu
    obtain ⟨hidle, hclosed, hopener⟩ := h.ending (by rw [hreceiver]; exact id)
    exact .of_ended hopener hclosed (absurd hidle) (fun _ => rfl) (fun _ _ => hnil)
      (fun _ => h.empty (.inl hreceiver)) (fun _ => ⟨rfl, .inl hidle⟩)
      (fun _ => .inr List.mem_cons_self) (fun _ => List.mem_cons_self)
  · cases hstep

theorem Orderly.step (h : Orderly s) (hkept : Kept gen s) {label : UdpLabel α}
    (hstep : s.step gen label = some t) : Orderly t := by
  cases label with
  | «open» =>
    simp only [UdpServer.step] at hstep
    split at hstep
    next hopener =>
      cases hstep
      exact h.opener (by rw [hopener]; nofun) (.inr ⟨nofun, rfl⟩) rfl rfl rfl rfl rfl
    next hopener =>
      cases hstep
      exact h.opener (by rw [hopener]; nofun) (.inl ⟨rfl, rfl⟩) rfl rfl rfl rfl rfl
    · cases hstep
  | datagram addr data =>
    simp only [UdpServer.step] at hstep
    split at hstep
    next hreceiver =>
      cases hstep
      exact h.receive (by rw [hreceiver]; nofun) (by rw [hreceiver]; trivial) rfl rfl rfl trivial rfl .rfl
    · cases hstep
  | recvError message =>
    simp only [UdpServer.step] at hstep
    split at hstep
    next hreceiver =>
      cases hstep
      refine h.receive (by rw [hreceiver]; nofun) (by rw [hreceiver]; trivial) rfl rfl rfl trivial rfl ?_
      simp
    · cases hstep
  | recv => exact h.recv hkept hstep
  | callClose =>
    cases hstep
    cases hopen : s.isOpen with
    | false => exact h.congr rfl hopen.symm rfl rfl id id .rfl
    | true =>
      obtain ⟨hidle, hquiet⟩ := h.running hopen
      have hopener : s.opener = .opened := by
        by_contra hne
        cases hopen.symm.trans (h.unopened hne).1
      have hlive : .close ∉ s.log := by
        intro hclose
        cases hopen.symm.trans (h.settled hclose).2.1
      refine .of_ended hopener rfl (fun _ => hquiet) nofun ?_ ?_ (absurd · hlive) nofun nofun
      · exact fun hr _ => h.waiting hr (by rw [hidle]; nofun)
      · rintro (hr | hc | hclose)
        · exact h.empty (.inl hr)
        · cases hc
        · exact absurd hclose hlive
  | close => exact h.close hstep
  | release addr =>
    obtain ⟨entry, hentry, rfl⟩ := Option.map_eq_some_iff.mp hstep
    refine h.congr rfl rfl rfl rfl id ?_ ?_
    · intro hnil
      rw [hnil] at hentry
      cases hentry
    · simp [sendConnectionClose, abort]
  | expire timer =>
    obtain ⟨⟨a, conn⟩, harmed, ht⟩ := Option.map_eq_some_iff.mp hstep
    dsimp only [abort] at ht
    split at ht
    next entry hentry =>
      split at ht
      · cases ht
        refine h.congr rfl rfl rfl rfl ?_ id ?_
        · intro hnil
          rw [hnil] at hentry
          cases hentry
        · simp
      · cases ht
        exact h.congr rfl rfl rfl rfl id id .rfl
    · cases ht
      exact h.congr rfl rfl rfl rfl id id .rfl
  | announce conn =>
    simp only [UdpServer.step] at hstep
    split at hstep
    · cases hstep
      refine h.congr rfl rfl rfl rfl id id ?_
      simp [sendConnectionClose]
    · cases hstep

theorem Kept.recv (h : Kept gen s) (hgen : Function.Injective gen) (horderly : Orderly s)
    (hstep : s.recv gen = some t) : Kept gen t := by
  unfold UdpServer.recv at hstep
  split at hstep
  · cases hstep
  next addr data hreceiver =>
    cases hstep
    exact (h.deliver hgen addr data).move rfl rfl rfl rfl rfl rfl rfl
  · cases hstep
    exact h.move rfl rfl rfl rfl rfl rfl rfl
  next hreceiver =>
    cases hstep
    obtain ⟨hidle, -, -⟩ := horderly.ending (by rw [hreceiver]; exact id)
    have hreleasing : s.releasing = ∅ :=
      horderly.waiting (by rw [hreceiver]; nofun) (by rw [hidle]; nofun)
    exact (h.drain hreleasing).move rfl rfl rfl rfl rfl rfl rfl
  · obtain ⟨u, hu, rfl⟩ := Option.map_eq_some_iff.mp hstep
    obtain ⟨-, rfl⟩ := sendClose_eq_some hu
    exact h.same [.close] rfl rfl rfl (fun _ _ => id) rfl rfl rfl
      (by simp [UdpEvent.lease, UdpEvent.announced])
  · cases hstep

theorem Kept.close (h : Kept gen s) (horderly : Orderly s) (hstep : s.close gen = some t) :
    Kept gen t := by
  unfold UdpServer.close at hstep
  split at hstep
  · cases hstep
  · cases hstep
    exact h.move rfl rfl rfl rfl rfl rfl rfl
  next hcloser =>
    cases hstep
    have hended : s.receiver = .ended := horderly.aborted (by rw [hcloser]; trivial)
    have hreleasing : s.releasing = ∅ :=
      horderly.waiting (by rw [hended]; nofun) (by rw [hcloser]; nofun)
    exact (h.drain hreleasing).move rfl rfl rfl rfl rfl rfl rfl
  · obtain ⟨u, hu, rfl⟩ := Option.map_eq_some_iff.mp hstep
    obtain ⟨-, rfl⟩ := sendClose_eq_some hu
    exact h.same [.close] rfl rfl rfl (fun _ _ => id) rfl rfl rfl
      (by simp [UdpEvent.lease, UdpEvent.announced])
  · cases hstep

theorem Kept.step (h : Kept gen s) (hgen : Function.Injective gen) (horderly : Orderly s)
    {label : UdpLabel α} (hstep : s.step gen label = some t) : Kept gen t := by
  cases label with
  | «open» =>
    simp only [UdpServer.step] at hstep
    split at hstep <;> cases hstep
    · exact h.move rfl rfl rfl rfl rfl rfl rfl
    · exact h.move rfl rfl rfl rfl rfl rfl rfl
  | datagram addr data =>
    simp only [UdpServer.step] at hstep
    split at hstep <;> cases hstep
    exact h.move rfl rfl rfl rfl rfl rfl rfl
  | recvError message =>
    simp only [UdpServer.step] at hstep
    split at hstep <;> cases hstep
    exact h.same [.error (.connectionError message)] rfl rfl rfl (fun _ _ => id) rfl rfl rfl
      (by simp [UdpEvent.lease, UdpEvent.announced])
  | recv => exact h.recv hgen horderly hstep
  | callClose =>
    cases hstep
    exact h.move rfl rfl rfl rfl rfl rfl rfl
  | close => exact h.close horderly hstep
  | release addr => exact h.release hstep
  | expire timer => exact h.expire hgen hstep
  | announce conn =>
    simp only [UdpServer.step] at hstep
    split at hstep
    next hconn => exact Option.some.inj hstep ▸ h.announce hconn
    · cases hstep

/-! ## Going on -/

/-- From `s` the tasks can go on to a state with `P`. -/
def Reaches (gen : Nat → κ) (s : UdpServer α κ) (P : UdpServer α κ → Prop) : Prop :=
  ∃ more t, exec (step gen) s more = some t ∧ P t

theorem Reaches.here {P : UdpServer α κ → Prop} (h : P s) : Reaches gen s P := ⟨[], s, rfl, h⟩

theorem Reaches.cons {P : UdpServer α κ → Prop} {label : UdpLabel α} (hstep : s.step gen label = some t)
    (h : Reaches gen t P) : Reaches gen s P := by
  obtain ⟨more, u, hrun, hu⟩ := h
  refine ⟨label :: more, u, ?_, hu⟩
  rw [exec_cons, hstep]
  exact hrun

theorem Reaches.trans {P Q : UdpServer α κ → Prop} (h : Reaches gen s P)
    (hnext : ∀ t, P t → Reaches gen t Q) : Reaches gen s Q := by
  obtain ⟨more, t, hrun, ht⟩ := h
  obtain ⟨more', u, hrun', hu⟩ := hnext t ht
  refine ⟨more ++ more', u, ?_, hu⟩
  rw [exec_append, hrun]
  exact hrun'

/-- What was drained can be announced, one after the other. -/
theorem reaches_released (s : UdpServer α κ) : Reaches gen s fun t =>
    t.releasing = ∅ ∧ t.receiver = s.receiver ∧ t.closer = s.closer ∧ (.close ∈ s.log → .close ∈ t.log) := by
  induction hlength : s.releasing.entries.length generalizing s with
  | zero => exact .here ⟨AList.ext (List.length_eq_zero_iff.mp hlength), rfl, rfl, id⟩
  | succ length ih =>
    obtain ⟨⟨a, entry⟩, entries, hentries⟩ := List.exists_cons_of_length_eq_add_one hlength
    have hlookup : s.releasing.lookup a = some entry := by
      rw [AList.lookup, hentries, List.dlookup_cons_eq]
    have hstep : s.step gen (.release a) =
        some (({ s with releasing := s.releasing.erase a }.abort entry.idleTimer).sendConnectionClose gen
          entry.conn) := by
      rw [step, release, hlookup]
      rfl
    refine .cons hstep ((ih _ ?_).trans fun t ht => .here ⟨ht.1, ht.2.1, ht.2.2.1, fun hclose => ?_⟩)
    swap
    · exact ht.2.2.2 (List.mem_cons_of_mem _ hclose)
    show (s.releasing.entries.kerase a).length = length
    rw [hentries, List.length_cons] at hlength
    have hkerase : List.kerase a (⟨a, entry⟩ :: entries) = entries := List.kerase_cons_eq rfl
    rw [hentries, hkerase]
    exact Nat.succ.inj hlength

/-- What was evicted can be announced, one after the other. -/
theorem reaches_announced (s : UdpServer α κ) : Reaches gen s fun t =>
    t.evicting = [] ∧ t.releasing = s.releasing ∧ (.close ∈ s.log → .close ∈ t.log) := by
  induction hevicting : s.evicting generalizing s with
  | nil => exact .here ⟨hevicting, rfl, id⟩
  | cons conn evicting ih =>
    have hstep : s.step gen (.announce conn) =
        some ({ s with evicting := evicting }.sendConnectionClose gen conn) := by
      rw [step, hevicting, if_pos List.mem_cons_self, List.erase_cons_head]
    refine .cons hstep ((ih _ rfl).trans fun t ht => .here ⟨ht.1, ht.2.1, fun hclose => ht.2.2 ?_⟩)
    exact List.mem_cons_of_mem _ hclose

/-- Once what was drained is announced, the one who drained sends the close. -/
theorem reaches_closed_of_releasing (h : s.receiver = .releasing ∨ s.closer = .releasing) :
    Reaches gen s fun t => .close ∈ t.log := by
  refine (reaches_released s).trans ?_
  rintro t ⟨hnil, hreceiver, hcloser, -⟩
  have hsend : t.sendClose = some { t with log := .close :: t.log } := by
    rw [sendClose, hnil]
    rfl
  rcases h with h | h
  · have hstep : t.step gen .recv = some { t with log := .close :: t.log, receiver := .ended } := by
      simp only [step, recv, hreceiver.trans h, hsend, Option.map_some]
    exact .cons hstep (.here List.mem_cons_self)
  · have hstep : t.step gen .close = some { t with log := .close :: t.log, closer := .returned } := by
      simp only [step, close, hcloser.trans h, hsend, Option.map_some]
    exact .cons hstep (.here List.mem_cons_self)

/-- A session that has ended for `is_open` comes to its close. -/
theorem Orderly.reaches_closed (h : Orderly s) (hopener : s.opener = .opened) (hopen : s.isOpen = false) :
    Reaches gen s fun t => .close ∈ t.log := by
  have hdraining : ∀ u : UdpServer α κ, u.closer = .draining → Reaches gen u fun t => .close ∈ t.log := by
    intro u hcloser
    have hstep : u.step gen .close = some { u.drain gen with closer := .releasing } := by
      simp only [UdpServer.step, UdpServer.close, hcloser]
    exact .cons hstep (reaches_closed_of_releasing (.inr rfl))
  cases hcloser : s.closer with
  | idle =>
    rcases h.taken hopener hopen hcloser with hreceiver | hclose
    · cases hphase : s.receiver with
      | draining =>
        have hstep : s.step gen .recv = some { s.drain gen with receiver := .releasing } := by
          simp only [UdpServer.step, UdpServer.recv, hphase]
        exact .cons hstep (reaches_closed_of_releasing (.inl rfl))
      | releasing => exact reaches_closed_of_releasing (.inl hphase)
      | _ =>
        rw [hphase] at hreceiver
        exact absurd trivial hreceiver
    · exact .here hclose
  | aborting =>
    have hstep : s.step gen .close = some { s with receiver := .ended, closer := .draining } := by
      simp only [UdpServer.step, UdpServer.close, hcloser]
    exact .cons hstep (hdraining _ rfl)
  | draining => exact hdraining s hcloser
  | releasing => exact reaches_closed_of_releasing (.inr hcloser)
  | returned => exact .here (h.closed hcloser)

/-! ## Runs -/

/-- A session that `open` has just spawned the receive task of. -/
def new (idleTimeoutMs : Nat) : UdpServer α κ := { idleTimeoutMs := idleTimeoutMs }

variable {idleTimeoutMs : Nat} {labels : List (UdpLabel α)}

theorem kept_of_run (hgen : Function.Injective gen)
    (run : exec (step gen) (.new idleTimeoutMs) labels = some s) : Kept gen s ∧ Orderly s :=
  exec_invariant' (P := fun s => Kept gen s ∧ Orderly s) (fun _ _ _ hs hstep =>
    ⟨hs.1.step hgen hs.2 hstep, hs.2.step hs.1 hstep⟩) run ⟨.init gen idleTimeoutMs, .init idleTimeoutMs⟩

/-- Two datagrams have one connection id exactly when they are of one address whose entry has lived from
the one to the other. -/
theorem Kept.same_iff (h : Kept gen s) {newer between older : List (UdpEvent α κ)}
    {event event' : DataEvent κ α} {timer timer' : Option Nat}
    (hlog : s.log = newer ++ .data event' timer' :: (between ++ .data event timer :: older)) :
    event'.connection = event.connection ↔ event'.response = event.response ∧
      ∀ e ∈ between, ¬ e.Ends event.response := by
  have hlawful := h.lawful
  simp only [leases, hlog, List.filterMap_append, List.filterMap_cons, UdpEvent.lease] at hlawful
  rw [hlawful.same_iff, stop_mem_leases]
  simp

/-- A timer evicts the entry for the latest datagram that armed it. -/
theorem Kept.evicted (h : Kept gen s) {newer older : List (UdpEvent α κ)} {addr : α} {conn : κ}
    {timer : Nat} (hlog : s.log = newer ++ .evicted addr conn timer :: older) :
    ∃ newer' older' data, older = newer' ++ .data ⟨data, addr, conn⟩ (some timer) :: older' ∧
      ∀ event timer', .data event timer' ∈ newer' → event.response ≠ addr := by
  have hheld := h.evictions newer older addr conn timer hlog
  obtain ⟨newer', older', hleases, -, hlatest⟩ := Lease.exists_use_of_held hheld
  obtain ⟨newer₁, rest, rfl, hnewer₁, hrest⟩ := List.filterMap_eq_append_iff.mp hleases
  obtain ⟨newer₂, latest, older', rfl, hnewer₂, hlease, -⟩ := List.filterMap_eq_cons_iff.mp hrest
  cases latest with
  | data event timer' =>
    cases hlease
    refine ⟨newer₁ ++ newer₂, older', event.data, by rw [List.append_assoc], ?_⟩
    intro event' timer' hmem haddr
    rcases List.mem_append.mp hmem with hmem | hmem
    · refine hlatest event'.connection timer' ?_
      rw [← hnewer₁, ← haddr]
      exact List.mem_filterMap.mpr ⟨_, hmem, rfl⟩
    · cases hnewer₂ _ hmem
  | _ => cases hlease

/-- The ids of datagrams were generated, and each is of an entry, announced or to be announced. -/
theorem Kept.connection_cases (h : Kept gen s) {addr : α} {conn : κ} {timer : Option Nat}
    (hused : Lease.use addr conn timer ∈ s.leases) :
    conn ∈ s.announced ∨ ∃ n ∈ s.unannounced, gen n = conn := by
  obtain ⟨n, hn, rfl⟩ := h.used addr conn timer hused
  have hmem : gen n ∈ s.unannounced.map gen ++ s.announced :=
    h.accounted.mem_iff.mpr (List.mem_map_of_mem (List.mem_range.mpr hn))
  exact (List.mem_append.mp hmem).symm.imp_right List.mem_map.mp

/-- An evicted id is of no entry. -/
theorem Kept.evicted_gone (h : Kept gen s) {addr : α} {conn : κ} {timer : Nat}
    (hmem : .evicted addr conn timer ∈ s.log) :
    (∃ mark, Lease.use addr conn mark ∈ s.leases) ∧
      ∀ n ∈ s.connections.conns, gen n ≠ conn := by
  obtain ⟨newer, older, hlog⟩ := List.append_of_mem hmem
  obtain ⟨newer', older', data, rfl, -⟩ := h.evicted hlog
  have hleases : s.leases = newer.filterMap UdpEvent.lease ++
      .stop addr :: (newer'.filterMap UdpEvent.lease ++
        .use addr conn (some timer) :: older'.filterMap UdpEvent.lease) := by
    simp only [leases, hlog, List.filterMap_append, List.filterMap_cons, UdpEvent.lease]
  have hsince := h.lawful
  rw [hleases, ← List.cons_append, ← List.append_assoc] at hsince
  have hgone := hsince.since.resolve_left fun hheld => hheld.1 (by simp)
  rw [List.append_assoc, List.cons_append, ← hleases] at hgone
  refine ⟨⟨some timer, by rw [hleases]; simp⟩, ?_⟩
  intro n hn heq
  obtain ⟨⟨a, entry⟩, he, rfl⟩ := List.mem_map.mp hn
  have hentry : s.connections.lookup a = some entry := AList.mem_lookup_iff.mpr he
  refine hgone.2 a entry.idleTimer ?_
  rw [h.held, hentry, ← heq]
  rfl

/-- What is drained and evicted is announced, and a session that has ended comes to its close. -/
theorem Orderly.reaches_settled (h : Orderly s) : Reaches gen s fun t =>
    t.pending = [] ∧ (s.opener = .opened → s.isOpen = false → .close ∈ t.log) := by
  have hclosed : Reaches gen s fun t => s.opener = .opened → s.isOpen = false → .close ∈ t.log := by
    by_cases hended : s.opener = .opened ∧ s.isOpen = false
    · exact (h.reaches_closed hended.1 hended.2).trans fun t hclose => .here fun _ _ => hclose
    · exact .here fun hopener hopen => absurd ⟨hopener, hopen⟩ hended
  refine hclosed.trans fun t ht => (reaches_released t).trans ?_
  rintro u ⟨hreleasing, -, -, hu⟩
  refine (reaches_announced u).trans ?_
  rintro v ⟨hevicting, hsame, hv⟩
  refine .here ⟨?_, fun hopener hopen => hv (hu (ht hopener hopen))⟩
  rw [pending, hevicting, hsame, hreleasing]
  rfl

/-- **The remotes of a server**: in every run of a session, two datagrams have one connection id exactly
when they are of one address whose entry has lived from the one to the other; a timer evicts an entry only
if the latest datagram of the address armed it; no id is announced twice, or while its entry lives; the
id of an evicted entry, and every id once the session is over, is announced or about to be, and the tasks
can always go on to where it is announced. -/
theorem remotes_kept (hgen : Function.Injective gen)
    (run : exec (step gen) (.new idleTimeoutMs) labels = some s) :
    (∀ newer between older event timer event' timer',
      s.log = newer ++ .data event' timer' :: (between ++ .data event timer :: older) →
      (event'.connection = event.connection ↔ event'.response = event.response ∧
        ∀ e ∈ between, ¬ UdpEvent.Ends event.response e)) ∧
    (∀ newer older addr conn timer, s.log = newer ++ .evicted addr conn timer :: older →
      ∃ newer' older' data, older = newer' ++ .data ⟨data, addr, conn⟩ (some timer) :: older' ∧
        ∀ event timer', .data event timer' ∈ newer' → event.response ≠ addr) ∧
    s.announced.Nodup ∧
    (∀ n ∈ s.connections.conns, gen n ∉ s.announced) ∧
    (∀ addr conn timer, .evicted addr conn timer ∈ s.log →
      conn ∈ s.announced ∨ ∃ n ∈ s.pending, gen n = conn) ∧
    (.close ∈ s.log → ∀ event timer, .data event timer ∈ s.log →
      event.connection ∈ s.announced ∨ ∃ n ∈ s.pending, gen n = event.connection) ∧
    Reaches gen s fun t =>
      (∀ addr conn timer, .evicted addr conn timer ∈ t.log → conn ∈ t.announced) ∧
      (s.opener = .opened → s.isOpen = false → ∀ event timer, .data event timer ∈ t.log →
        event.connection ∈ t.announced) := by
  have hnodup : ∀ {u : UdpServer α κ}, Kept gen u → (u.unannounced.map gen ++ u.announced).Nodup :=
    fun hu => hu.accounted.nodup_iff.mpr (List.nodup_range.map hgen)
  have hevicted : ∀ {u : UdpServer α κ}, Kept gen u → ∀ addr conn timer,
      .evicted addr conn timer ∈ u.log → conn ∈ u.announced ∨ ∃ n ∈ u.pending, gen n = conn := by
    intro u hu addr conn timer hmem
    obtain ⟨⟨mark, hused⟩, hgone⟩ := hu.evicted_gone hmem
    refine (hu.connection_cases hused).imp_right ?_
    rintro ⟨n, hn, heq⟩
    exact ⟨n, (List.mem_append.mp hn).resolve_left fun hlive => hgone n hlive heq, heq⟩
  have hover : ∀ {u : UdpServer α κ}, Kept gen u → Orderly u → .close ∈ u.log → ∀ event timer,
      .data event timer ∈ u.log →
        event.connection ∈ u.announced ∨ ∃ n ∈ u.pending, gen n = event.connection := by
    intro u hu horderly hclose event timer hmem
    have hempty : u.connections.conns = [] := by
      rw [horderly.empty (.inr (.inr hclose))]
      rfl
    have hused : Lease.use event.response event.connection timer ∈ u.leases :=
      List.mem_filterMap.mpr ⟨_, hmem, rfl⟩
    have hcases := hu.connection_cases hused
    rwa [unannounced, hempty, List.nil_append] at hcases
  obtain ⟨hkept, horderly⟩ := kept_of_run hgen run
  refine ⟨fun _ _ _ _ _ _ _ hlog => hkept.same_iff hlog, fun _ _ _ _ _ hlog => hkept.evicted hlog,
    (List.nodup_append.mp (hnodup hkept)).2.1, ?_, hevicted hkept, hover hkept horderly, ?_⟩
  · intro n hn hmem
    exact (List.nodup_append.mp (hnodup hkept)).2.2 _
      (List.mem_map_of_mem (List.mem_append_left _ hn)) _ hmem rfl
  · have hsettled : Reaches gen s fun t =>
        t.pending = [] ∧ (s.opener = .opened → s.isOpen = false → .close ∈ t.log) := horderly.reaches_settled
    obtain ⟨more, t, hrun, hpending, hclose⟩ := hsettled
    have hrun' : exec (step gen) (.new idleTimeoutMs) (labels ++ more) = some t := by
      rw [exec_append, run]
      exact hrun
    obtain ⟨hkept', horderly'⟩ := kept_of_run hgen hrun'
    have hnone : ∀ {conn : κ}, ¬ ∃ n ∈ t.pending, gen n = conn := by
      rintro conn ⟨n, hn, -⟩
      rw [hpending] at hn
      cases hn
    refine ⟨more, t, hrun, ?_, ?_⟩
    · exact fun addr conn timer hmem => (hevicted hkept' addr conn timer hmem).resolve_right hnone
    · exact fun hopener hopen event timer hmem =>
        (hover hkept' horderly' (hclose hopener hopen) event timer hmem).resolve_right hnone

/-- Two addresses; the entry of the first is evicted and made again before the session is closed. -/
theorem remotes_kept_two : ∃ s : UdpServer Nat (String × Nat),
    exec (step (Prod.mk "udp-server")) (.new 30000)
        [.open, .open, .datagram 1 [7], .recv, .datagram 2 [8], .recv, .expire 0, .announce 0,
          .datagram 1 [9], .recv, .callClose, .close, .close, .release 1, .release 2, .close] = some s ∧
      s.announced.length = 3 ∧ s.announced.Nodup := by
  have run : exec (step (Prod.mk "udp-server")) (.new 30000 : UdpServer Nat (String × Nat))
    [.open, .open, .datagram 1 [7], .recv, .datagram 2 [8], .recv, .expire 0, .announce 0,
      .datagram 1 [9], .recv, .callClose, .close, .close, .release 1, .release 2, .close] = some _ := rfl
  exact ⟨_, run, rfl, (remotes_kept (fun _ _ h => congrArg Prod.snd h) run).2.2.1⟩

end UdpServer

end RsModbus.Physical
