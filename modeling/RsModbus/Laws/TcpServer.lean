import RsModbus.Library.Runs
import RsModbus.Physical.TcpServer

/-!
# Laws of the connections of a TCP server

* `Stage`: how far the current session is, what `open`, the accept loops and `close` are to each other
  then.
* `Placed`: every connection is in one place. Its entry is about to be inserted, in the map or drained,
  or its end is about to be announced, or was announced.
* `connections_announced`: when the tasks that take entries in and out of the map do so in order, and an
  aborted accept loop goes no further, the end of every connection is announced once, before the close event
  of its session.
* `connection_forgotten`: otherwise it is not.
-/

namespace RsModbus.Physical

open Library

variable {s t : TcpServer} {n c : Nat}

/-! ## Order -/

/-- The accept loop has not ended. -/
def AcceptPhase.Serving : AcceptPhase → Prop
  | .accepting => True
  | .inserting _ => True
  | .failed => True
  | _ => False

/-- A `close` that has still to drain the map. -/
def DrainPhase.Window : DrainPhase → Prop
  | .stopping => True
  | .draining => True
  | _ => False

/-- The map has not been drained for the session. -/
def DrainPhase.Before : DrainPhase → Prop
  | .idle => True
  | .stopping => True
  | .draining => True
  | _ => False

/-- The read task has not taken its entry out of the map. -/
def TaskPhase.Reading : TaskPhase → Prop
  | .reading => True
  | .leaving => True
  | _ => False

/-- A read task takes its entry out once it was inserted; `close` aborts an accept loop that is not about to
insert an entry, and one that is aborted goes no further; `open` clears a map that is empty, and no `close`
has still to drain it; a close event is sent when no read task of the session is about to announce its end
and, by an accept loop, when no entry of the session is in the map. -/
def Served (s : TcpServer) : ServerLabel → Prop
  | .accept n _ => n ∉ s.abortedLoops
  | .reader c => s.readers c = .leaving → s.acceptors (s.owner c) ≠ .inserting c
  | .close n =>
    (s.closers n = .stopping → ∀ task, s.acceptTask = some task → ∀ c, s.acceptors task ≠ .inserting c) ∧
      (s.closers n = .releasing ∅ → ∀ c, s.owner c = n → s.readers c ≠ .announcing)
  | .acceptor n => n ∉ s.abortedLoops ∧
      (s.acceptors n = .closing → ∀ c, s.owner c = n → s.readers c ≠ .announcing ∧ c ∉ s.clients)
  | .open => s.opener = .clearing → s.clients = ∅ ∧ ∀ n, ¬ (s.closers n).Window
  | _ => True

/-! ## The current session -/

/-- `open` has not cleared the map, or it has set `is_open`. -/
def BindPhase.Aside : BindPhase → Prop
  | .idle => True
  | .binding => True
  | .clearing => True
  | .lowering => True
  | _ => False

namespace TcpServer

/-- Where an accept loop stands; one that is aborted counts as ended. -/
def loop (s : TcpServer) (n : Nat) : AcceptPhase :=
  if n ∈ s.abortedLoops then .ended else s.acceptors n

theorem loop_of_notMem (hn : n ∉ s.abortedLoops) : s.loop n = s.acceptors n := if_neg hn

theorem loop_of_mem (hn : n ∈ s.abortedLoops) : s.loop n = .ended := if_pos hn

/-- An accept loop that does not count as ended. -/
theorem acceptors_of_loop {phase : AcceptPhase} (hloop : s.loop n = phase) (hphase : phase ≠ .ended) :
    n ∉ s.abortedLoops ∧ s.acceptors n = phase := by
  have hn : n ∉ s.abortedLoops := fun hn => hphase (hloop.symm.trans (loop_of_mem hn))
  exact ⟨hn, (loop_of_notMem hn).symm.trans hloop⟩

/-- No session but `n` has an accept loop running or a `close` that has not drained the map. -/
def Alone (s : TcpServer) (n : Nat) : Prop :=
  ∀ m, m ≠ n → ¬ (s.loop m).Serving ∧ ¬ (s.closers m).Window

/-- How far the current session is: there is none; the map is cleared for it; its accept loop is spawned;
it is open; a `close` has found it open. -/
inductive Stage (s : TcpServer) : Prop where
  | apart (hopener : s.opener.Aside) (hopen : s.isOpen = false)
      (hnone : ∀ m, ¬ (s.loop m).Serving ∧ ¬ (s.closers m).Window)
  | spawning (hopener : s.opener = .spawning) (hopen : s.isOpen = false) (hclients : s.clients = ∅)
      (hnone : ∀ m, ¬ (s.loop m).Serving ∧ ¬ (s.closers m).Window)
  | spawned (n : Nat) (hopener : s.opener = .storing n ∨ s.opener = .raising n ∧ s.acceptTask = some n)
      (hopen : s.isOpen = false) (hlast : n + 1 = s.sessions)
      (hacceptor : (s.loop n).Serving ∨ s.loop n = .ended) (hcloser : s.closers n = .idle)
      (halone : s.Alone n)
  | running (hopener : s.opener = .idle ∨ s.opener = .lowering) (hopen : s.isOpen = true)
      (hlast : s.session + 1 = s.sessions) (htask : s.acceptTask = some s.session)
      (hacceptor : (s.loop s.session).Serving ∨ s.loop s.session = .ended)
      (hcloser : s.closers s.session = .idle) (halone : s.Alone s.session)
  | closing (n : Nat) (hopener : s.opener.Aside) (hopen : s.isOpen = false) (hlast : n + 1 = s.sessions)
      (hcloser : s.closers n = .stopping ∧ s.acceptTask = some n ∨
        s.closers n = .draining ∧ ¬ (s.loop n).Serving) (halone : s.Alone n)

/-- An accept loop that has not ended is that of the current session. -/
theorem Stage.of_serving (h : Stage s) (hserving : (s.loop n).Serving) : n + 1 = s.sessions ∧
    ((s.opener = .storing n ∨ s.opener = .raising n) ∧ s.isOpen = false ∧ s.closers n = .idle ∨
      s.isOpen = true ∧ n = s.session ∧ s.closers n = .idle ∨
        s.isOpen = false ∧ s.closers n = .stopping) := by
  cases h with
  | apart hopener hopen hnone => exact absurd hserving (hnone n).1
  | spawning hopener hopen hclients hnone => exact absurd hserving (hnone n).1
  | spawned k hopener hopen hlast hacceptor hcloser halone =>
    by_cases hn : n = k
    · subst hn
      exact ⟨hlast, .inl ⟨hopener.imp_right And.left, hopen, hcloser⟩⟩
    · exact absurd hserving (halone n hn).1
  | running hopener hopen hlast htask hacceptor hcloser halone =>
    by_cases hn : n = s.session
    · exact ⟨hn ▸ hlast, .inr (.inl ⟨hopen, hn, hn ▸ hcloser⟩)⟩
    · exact absurd hserving (halone n hn).1
  | closing k hopener hopen hlast hcloser halone =>
    by_cases hn : n = k
    · subst hn
      rcases hcloser with ⟨hc, -⟩ | ⟨-, hnot⟩
      · exact ⟨hlast, .inr (.inr ⟨hopen, hc⟩)⟩
      · exact absurd hserving hnot
    · exact absurd hserving (halone n hn).1

/-- A `close` that has still to drain the map is that of the current session. -/
theorem Stage.of_window (h : Stage s) (hwindow : (s.closers n).Window) :
    s.opener.Aside ∧ s.isOpen = false ∧ n + 1 = s.sessions ∧
      (s.closers n = .stopping ∧ s.acceptTask = some n ∨
        s.closers n = .draining ∧ ¬ (s.loop n).Serving) ∧ s.Alone n := by
  have hnot : ∀ {k}, s.closers k = .idle → s.Alone k → False := by
    intro k hcloser halone
    by_cases hk : n = k
    · rw [hk, hcloser] at hwindow
      exact hwindow
    · exact (halone n hk).2 hwindow
  cases h with
  | closing k hopener hopen hlast hcloser halone =>
    have hk : n = k := by
      by_contra hk
      exact (halone n hk).2 hwindow
    subst hk
    exact ⟨hopener, hopen, hlast, hcloser, halone⟩
  | apart _ _ hnone => exact absurd hwindow (hnone n).2
  | spawning _ _ _ hnone => exact absurd hwindow (hnone n).2
  | spawned k _ _ _ _ hcloser halone => exact (hnot hcloser halone).elim
  | running _ _ _ _ _ hcloser halone => exact (hnot hcloser halone).elim

/-- The session is open. -/
theorem Stage.of_isOpen (h : Stage s) (hopen : s.isOpen = true) :
    (s.opener = .idle ∨ s.opener = .lowering) ∧ s.session + 1 = s.sessions ∧
      s.acceptTask = some s.session ∧
      ((s.loop s.session).Serving ∨ s.loop s.session = .ended) ∧
      s.closers s.session = .idle ∧ s.Alone s.session := by
  cases h with
  | running hopener _ hlast htask hacceptor hcloser halone =>
    exact ⟨hopener, hlast, htask, hacceptor, hcloser, halone⟩
  | apart _ hclosed => cases hopen.symm.trans hclosed
  | spawning _ hclosed => cases hopen.symm.trans hclosed
  | spawned _ _ hclosed => cases hopen.symm.trans hclosed
  | closing _ _ hclosed => cases hopen.symm.trans hclosed

/-- A step that keeps which accept loops and which of the other tasks are about. -/
theorem Stage.congr (h : Stage s) (hopener : t.opener = s.opener) (hopen : t.isOpen = s.isOpen)
    (hsessions : t.sessions = s.sessions) (hsession : t.session = s.session)
    (htask : t.acceptTask = s.acceptTask) (hclients : s.clients = ∅ → s.opener = .spawning → t.clients = ∅)
    (hserving : ∀ m, (t.loop m).Serving ↔ (s.loop m).Serving)
    (hended : ∀ m, s.loop m = .ended → t.loop m = .ended)
    (hclosers : ∀ m, t.closers m = s.closers m ∨ ¬ (t.closers m).Window ∧ ¬ (s.closers m).Before) :
    Stage t := by
  have hbefore : ∀ m, (s.closers m).Before → t.closers m = s.closers m :=
    fun m hb => (hclosers m).resolve_right fun hc => hc.2 hb
  have hnot : ∀ m, ¬ (s.loop m).Serving ∧ ¬ (s.closers m).Window →
      ¬ (t.loop m).Serving ∧ ¬ (t.closers m).Window := by
    rintro m ⟨ha, hc⟩
    refine ⟨fun hs => ha ((hserving m).mp hs), ?_⟩
    rcases hclosers m with heq | ⟨hw, -⟩
    · rwa [heq]
    · exact hw
  have halone' : ∀ k, s.Alone k → t.Alone k := fun k halone m hm => hnot m (halone m hm)
  have hacceptor' : ∀ m, (s.loop m).Serving ∨ s.loop m = .ended →
      (t.loop m).Serving ∨ t.loop m = .ended :=
    fun m hm => hm.imp (hserving m).mpr (hended m)
  have hidle : ∀ m, s.closers m = .idle → t.closers m = .idle := by
    intro m hm
    rw [hbefore m (hm ▸ trivial)]
    exact hm
  cases h with
  | apart hopener' hopen' hnone =>
    exact .apart (hopener ▸ hopener') (hopen.trans hopen') fun m => hnot m (hnone m)
  | spawning hopener' hopen' hclients' hnone =>
    exact .spawning (hopener.trans hopener') (hopen.trans hopen') (hclients hclients' hopener')
      fun m => hnot m (hnone m)
  | spawned k hopener' hopen' hlast hacceptor hcloser halone =>
    refine .spawned k ?_ (hopen.trans hopen') (hsessions ▸ hlast) (hacceptor' k hacceptor)
      (hidle k hcloser) (halone' k halone)
    rw [hopener, htask]
    exact hopener'
  | running hopener' hopen' hlast htask' hacceptor hcloser halone =>
    refine .running (hopener ▸ hopener') (hopen.trans hopen') ?_ ?_ ?_ ?_ ?_ <;> rw [hsession]
    · exact hsessions ▸ hlast
    · exact htask.trans htask'
    · exact hacceptor' _ hacceptor
    · exact hidle _ hcloser
    · exact halone' _ halone
  | closing k hopener' hopen' hlast hcloser halone =>
    refine .closing k (hopener ▸ hopener') (hopen.trans hopen') (hsessions ▸ hlast) ?_ (halone' k halone)
    have hsame : t.closers k = s.closers k := by
      apply hbefore
      rcases hcloser with ⟨hc, -⟩ | ⟨hc, -⟩ <;> rw [hc] <;> trivial
    rw [hsame, htask, hserving]
    exact hcloser

/-! ## The connections -/

/-- How often the end of a connection was announced. -/
def ends (s : TcpServer) (c : Nat) : Nat := s.log.count (.connectionClose c)

theorem ends_send (s : TcpServer) (c : Nat) : (s.send (.connectionClose c)).ends c = s.ends c + 1 :=
  List.count_cons_self

/-- The `close` of session `n` has drained the connection, and not yet announced it. -/
def Drained (s : TcpServer) (n c : Nat) : Prop := ∃ drained, s.closers n = .releasing drained ∧ c ∈ drained

theorem drained_congr (hclosers : t.closers n = s.closers n) : t.Drained n c ↔ s.Drained n c := by
  simp only [Drained, hclosers]

theorem drained_iff {drained : Finset Nat} (hcloser : s.closers n = .releasing drained) :
    s.Drained n c ↔ c ∈ drained := by
  simp [Drained, hcloser]

/-- A connection is in one place. -/
structure Placed (s : TcpServer) (c : Nat) : Prop where
  place : c < s.generated → s.loop (s.owner c) = .inserting c ∨ c ∈ s.clients ∨
    s.Drained (s.owner c) c ∨ s.readers c = .announcing ∨ s.ends c = 1
  inserting : ∀ n, s.loop n = .inserting c → c < s.generated ∧ s.owner c = n ∧ c ∉ s.clients ∧
    (s.readers c).Reading ∧ s.ends c = 0
  held : c ∈ s.clients → c < s.generated ∧ (s.readers c).Reading ∧ s.ends c = 0
  drained : ∀ n, s.Drained n c → c < s.generated ∧ s.owner c = n ∧ c ∉ s.clients ∧
    ((s.readers c).Reading ∨ s.readers c = .ended) ∧ s.ends c = 0
  announcing : s.readers c = .announcing → c < s.generated ∧ c ∉ s.clients ∧ s.ends c = 0
  aborted : c ∈ s.abortedReads → s.ends c = 1
  future : s.generated ≤ c → s.readers c = .unborn ∧ s.ends c = 0

/-- No connection is announced twice. -/
theorem Placed.ends_le (h : Placed s c) : s.ends c ≤ 1 := by
  by_cases hc : c < s.generated
  · rcases h.place hc with hinserting | hheld | hdrained | hannouncing | hended
    · exact (h.inserting _ hinserting).2.2.2.2 ▸ Nat.zero_le 1
    · exact (h.held hheld).2.2 ▸ Nat.zero_le 1
    · exact (h.drained _ hdrained).2.2.2.2 ▸ Nat.zero_le 1
    · exact (h.announcing hannouncing).2.2 ▸ Nat.zero_le 1
    · exact Nat.le_of_eq hended
  · exact (h.future (Nat.le_of_not_lt hc)).2 ▸ Nat.zero_le 1

/-- A step that does not concern the connection. -/
theorem Placed.congr (h : Placed s c) (hgenerated : c < t.generated ↔ c < s.generated)
    (howner : t.owner c = s.owner c)
    (hacceptors : ∀ n, t.loop n = .inserting c ↔ s.loop n = .inserting c)
    (hclients : c ∈ t.clients ↔ c ∈ s.clients) (hdrained : ∀ n, t.Drained n c ↔ s.Drained n c)
    (hreaders : t.readers c = s.readers c) (haborted : c ∈ t.abortedReads ↔ c ∈ s.abortedReads)
    (hends : t.ends c = s.ends c) : Placed t c where
  place := by
    rw [hgenerated, howner, hacceptors, hclients, hdrained, hreaders, hends]
    exact h.place
  inserting := by
    intro n
    rw [hgenerated, howner, hacceptors, hclients, hreaders, hends]
    exact h.inserting n
  held := by
    rw [hgenerated, hclients, hreaders, hends]
    exact h.held
  drained := by
    intro n
    rw [hgenerated, howner, hclients, hdrained, hreaders, hends]
    exact h.drained n
  announcing := by
    rw [hgenerated, hclients, hreaders, hends]
    exact h.announcing
  aborted := by
    rw [haborted, hends]
    exact h.aborted
  future := by
    rw [← Nat.not_lt, hgenerated, Nat.not_lt, hreaders, hends]
    exact h.future

/-- What holds of a server between two steps. -/
structure Orderly (s : TcpServer) : Prop where
  stage : Stage s
  placed : ∀ c, Placed s c
  client : ∀ c ∈ s.clients, s.owner c + 1 = s.sessions ∧ (s.closers (s.owner c)).Before
  fresh : ∀ n, s.sessions ≤ n → s.loop n = .unborn ∧ s.closers n = .idle
  ending : ∀ n, s.loop n = .closing → s.closers n = .idle
  settled : ∀ newer older n, s.log = newer ++ .close n :: older →
    ¬ (s.loop n).Serving ∧ n < s.sessions ∧
      ∀ c, c < s.generated → s.owner c = n → older.count (.connectionClose c) = 1

/-! ## Updates -/

@[simp] theorem readers_setReader_self (s : TcpServer) (c : Nat) (phase : TaskPhase) :
    (s.setReader c phase).readers c = phase := Function.update_self ..

theorem readers_setReader_of_ne {k : Nat} (hk : k ≠ c) (phase : TaskPhase) :
    (s.setReader c phase).readers k = s.readers k := Function.update_of_ne hk _ _

theorem loop_setAcceptor_self (hn : n ∉ s.abortedLoops) (phase : AcceptPhase) :
    (s.setAcceptor n phase).loop n = phase :=
  (loop_of_notMem (s := s.setAcceptor n phase) hn).trans (Function.update_self ..)

theorem loop_setAcceptor_of_ne {m : Nat} (hm : m ≠ n) (phase : AcceptPhase) :
    (s.setAcceptor n phase).loop m = s.loop m := by
  show (if m ∈ s.abortedLoops then _ else Function.update s.acceptors n phase m) = _
  rw [Function.update_of_ne hm]
  rfl

/-- An accept loop that `close` aborts. -/
theorem loop_of_insert (haborted : t.abortedLoops = insert n s.abortedLoops)
    (hacceptors : t.acceptors = s.acceptors) : t.loop n = .ended ∧ ∀ m, m ≠ n → t.loop m = s.loop m := by
  refine ⟨loop_of_mem (haborted ▸ Finset.mem_insert_self n _), ?_⟩
  intro m hm
  rw [loop, loop, haborted, hacceptors]
  simp only [Finset.mem_insert, hm, false_or]

/-- An accept loop that goes on, or had ended. -/
theorem serving_loop {phase : AcceptPhase} (hself : t.loop n = phase)
    (hother : ∀ m, m ≠ n → t.loop m = s.loop m) (hphase : phase.Serving ↔ (s.loop n).Serving) (m : Nat) :
    (t.loop m).Serving ↔ (s.loop m).Serving := by
  by_cases hm : m = n
  · rw [hm, hself]
    exact hphase
  · rw [hother m hm]

/-- An accept loop that ends. -/
theorem serving_of_loop {phase : AcceptPhase} (hself : t.loop n = phase)
    (hother : ∀ m, m ≠ n → t.loop m = s.loop m) (hafter : ¬ phase.Serving) (m : Nat)
    (hm : (t.loop m).Serving) : (s.loop m).Serving := by
  by_cases hne : m = n
  · rw [hne, hself] at hm
    exact absurd hm hafter
  · rwa [hother m hne] at hm

theorem ended_setAcceptor {phase : AcceptPhase} (hbefore : (s.loop n).Serving) {m : Nat}
    (hm : s.loop m = .ended) : (s.setAcceptor n phase).loop m = .ended := by
  have hne : m ≠ n := by
    rintro rfl
    rw [hm] at hbefore
    exact hbefore
  exact (loop_setAcceptor_of_ne hne phase).trans hm

/-- An accept loop that inserts nothing before and after. -/
theorem inserting_loop {phase : AcceptPhase} (hself : t.loop n = phase)
    (hother : ∀ m, m ≠ n → t.loop m = s.loop m) (hbefore : ∀ k, s.loop n ≠ .inserting k)
    (hafter : ∀ k, phase ≠ .inserting k) (m k : Nat) :
    t.loop m = .inserting k ↔ s.loop m = .inserting k := by
  by_cases hm : m = n
  · rw [hm, hself]
    exact iff_of_false (hafter k) (hbefore k)
  · rw [hother m hm]

@[simp] theorem closers_setCloser_self (s : TcpServer) (n : Nat) (phase : DrainPhase) :
    (s.setCloser n phase).closers n = phase := Function.update_self ..

theorem closers_setCloser_of_ne {m : Nat} (hm : m ≠ n) (phase : DrainPhase) :
    (s.setCloser n phase).closers m = s.closers m := Function.update_of_ne hm _ _

/-- A `close` that holds nothing drained before and after. -/
theorem releasing_setCloser {phase : DrainPhase} (hbefore : ∀ d, s.closers n ≠ .releasing d)
    (hafter : ∀ d, phase ≠ .releasing d) (m : Nat) (d : Finset Nat) :
    (s.setCloser n phase).closers m = .releasing d ↔ s.closers m = .releasing d := by
  by_cases hm : m = n
  · rw [hm, closers_setCloser_self]
    exact iff_of_false (hafter d) (hbefore d)
  · rw [closers_setCloser_of_ne hm]

/-! ## Steps -/

/-- A log to which no close event was added. -/
theorem Orderly.settled_of (h : Orderly s) (events : List ServerEvent) (hlog : t.log = events ++ s.log)
    (hevents : ∀ n, .close n ∉ events) (hsessions : s.sessions ≤ t.sessions)
    (hserving : ∀ m, m < s.sessions → (t.loop m).Serving → (s.loop m).Serving)
    (hconns : ∀ c, c < t.generated → c < s.generated ∧ t.owner c = s.owner c ∨
      (s.loop (t.owner c)).Serving) :
    ∀ newer older n, t.log = newer ++ .close n :: older →
      ¬ (t.loop n).Serving ∧ n < t.sessions ∧
        ∀ c, c < t.generated → t.owner c = n → older.count (.connectionClose c) = 1 := by
  intro newer older n hsplit
  rw [hlog] at hsplit
  obtain ⟨rest, hold⟩ := exists_split_of_append hsplit (hevents n)
  obtain ⟨hnot, hlt, hends⟩ := h.settled rest older n hold
  refine ⟨fun hs => hnot (hserving n hlt hs), Nat.lt_of_lt_of_le hlt hsessions, ?_⟩
  intro c hc howner
  rcases hconns c hc with ⟨hc, hsame⟩ | hs
  · exact hends c hc (hsame.symm.trans howner)
  · rw [howner] at hs
    exact absurd hs hnot

/-- An accept loop that has not ended, and a drained map, are not of one session. -/
theorem Orderly.not_drained (h : Orderly s) (hserving : (s.loop n).Serving) : ¬ s.Drained n c := by
  rintro ⟨drained, hcloser, -⟩
  rcases (h.stage.of_serving hserving).2 with ⟨-, -, hc⟩ | ⟨-, -, hc⟩ | ⟨-, hc⟩ <;>
    cases hcloser.symm.trans hc

/-- An accept loop that was spawned is not one of the sessions to come. -/
theorem Orderly.fresh_setAcceptor (h : Orderly s) (hborn : s.loop n ≠ .unborn) (phase : AcceptPhase) :
    ∀ m, s.sessions ≤ m → (s.setAcceptor n phase).loop m = .unborn ∧ s.closers m = .idle := by
  intro m hm
  obtain ⟨hacceptor, hcloser⟩ := h.fresh m hm
  have hne : m ≠ n := by
    rintro rfl
    exact hborn hacceptor
  exact ⟨(loop_setAcceptor_of_ne hne phase).trans hacceptor, hcloser⟩

/-- An accept loop that is about to send a close event only if its session has no `close`. -/
theorem Orderly.ending_setAcceptor (h : Orderly s) (hn : n ∉ s.abortedLoops) {phase : AcceptPhase}
    (hidle : phase = .closing → s.closers n = .idle) :
    ∀ m, (s.setAcceptor n phase).loop m = .closing → s.closers m = .idle := by
  intro m hm
  by_cases hne : m = n
  · subst hne
    exact hidle ((loop_setAcceptor_self hn phase).symm.trans hm)
  · exact h.ending m ((loop_setAcceptor_of_ne hne phase).symm.trans hm)

/-- A step that concerns no connection. -/
theorem Orderly.quiet (h : Orderly s) (hstage : Stage t) (events : List ServerEvent)
    (hlog : t.log = events ++ s.log)
    (hevents : ∀ e ∈ events, ∀ k, e ≠ .close k ∧ e ≠ .connectionClose k)
    (hgenerated : t.generated = s.generated) (howner : t.owner = s.owner)
    (hclients : t.clients = s.clients) (hreaders : t.readers = s.readers)
    (haborted : t.abortedReads = s.abortedReads) (hsessions : t.sessions = s.sessions)
    (hinserting : ∀ m k, t.loop m = .inserting k ↔ s.loop m = .inserting k)
    (hserving : ∀ m, (t.loop m).Serving → (s.loop m).Serving)
    (hunborn : ∀ m, s.sessions ≤ m → s.loop m = .unborn → t.loop m = .unborn)
    (hending : ∀ m, t.loop m = .closing → t.closers m = .idle)
    (hreleasing : ∀ m d, t.closers m = .releasing d ↔ s.closers m = .releasing d)
    (hbefore : ∀ m, (s.closers m).Before → (t.closers m).Before)
    (hidle : ∀ m, s.sessions ≤ m → t.closers m = s.closers m) : Orderly t := by
  refine ⟨hstage, ?_, ?_, ?_, hending, ?_⟩
  · intro c
    refine (h.placed c).congr (by rw [hgenerated]) (by rw [howner]) (fun m => hinserting m c)
      (by rw [hclients]) ?_ (by rw [hreaders]) (by rw [haborted]) ?_
    · intro m
      simp only [Drained, hreleasing]
    · have hnone : events.count (.connectionClose c) = 0 :=
        List.count_eq_zero.mpr fun hmem => (hevents _ hmem c).2 rfl
      rw [ends, ends, hlog, List.count_append, hnone, Nat.zero_add]
  · rw [hclients, howner, hsessions]
    exact fun c hc => ⟨(h.client c hc).1, hbefore _ (h.client c hc).2⟩
  · intro m hm
    rw [hsessions] at hm
    obtain ⟨hacceptor, hcloser⟩ := h.fresh m hm
    exact ⟨hunborn m hm hacceptor, (hidle m hm).trans hcloser⟩
  · refine h.settled_of events hlog (fun n hmem => (hevents _ hmem n).1 rfl) (Nat.le_of_eq hsessions.symm)
      (fun m _ => hserving m) ?_
    intro c hc
    rw [hgenerated] at hc
    exact .inl ⟨hc, by rw [howner]⟩

/-- A step that moves no task of a session or a connection. -/
theorem Orderly.same (h : Orderly s) (hstage : Stage t) (hlog : t.log = s.log)
    (hgenerated : t.generated = s.generated) (howner : t.owner = s.owner) (hclients : t.clients = s.clients)
    (hreaders : t.readers = s.readers) (haborted : t.abortedReads = s.abortedReads)
    (hsessions : t.sessions = s.sessions) (hacceptors : t.loop = s.loop)
    (hclosers : t.closers = s.closers) : Orderly t := by
  refine h.quiet hstage [] hlog nofun hgenerated howner hclients hreaders haborted hsessions ?_ ?_ ?_ ?_ ?_
    ?_ ?_
  · exact fun m k => by rw [hacceptors]
  · exact fun m => by rw [hacceptors]; exact id
  · exact fun m _ => by rw [hacceptors]; exact id
  · exact fun m => by rw [hacceptors, hclosers]; exact h.ending m
  · exact fun m d => by rw [hclosers]
  · exact fun m => by rw [hclosers]; exact id
  · exact fun m _ => by rw [hclosers]

/-! ### `open` -/

/-- `open` is before the clearing of the map, or past its store to `is_open`. -/
theorem Stage.next (h : Stage s) (haside : s.opener.Aside) {opener : BindPhase} (hopener : opener.Aside)
    (hrunning : s.isOpen = true → opener = .idle ∨ opener = .lowering) :
    Stage { s with opener := opener } := by
  cases h with
  | apart _ hopen hnone => exact .apart hopener hopen hnone
  | closing n _ hopen hlast hcloser halone => exact .closing n hopener hopen hlast hcloser halone
  | running _ hopen hlast htask hacceptor hcloser halone =>
    exact .running (hrunning hopen) hopen hlast htask hacceptor hcloser halone
  | spawning hopener' =>
    rw [hopener'] at haside
    exact haside.elim
  | spawned n hopener' => rcases hopener' with h' | ⟨h', -⟩ <;> rw [h'] at haside <;> exact haside.elim

/-- `open` has spawned its accept loop. -/
theorem Stage.of_spawned (h : Stage s) (hopener : s.opener = .storing n ∨ s.opener = .raising n) :
    (s.opener = .raising n → s.acceptTask = some n) ∧ s.isOpen = false ∧ n + 1 = s.sessions ∧
      ((s.loop n).Serving ∨ s.loop n = .ended) ∧ s.closers n = .idle ∧ s.Alone n := by
  have hnot : ¬ s.opener.Aside := by
    rcases hopener with h | h <;> rw [h] <;> exact id
  cases h with
  | spawned k hopener' hopen hlast hacceptor hcloser halone =>
    have hk : n = k := by
      rcases hopener with h | h <;> rcases hopener' with h' | ⟨h', -⟩ <;> cases h.symm.trans h' <;> rfl
    subst hk
    refine ⟨?_, hopen, hlast, hacceptor, hcloser, halone⟩
    intro hraising
    rcases hopener' with h' | ⟨-, htask⟩
    · cases hraising.symm.trans h'
    · exact htask
  | apart hopener' => exact absurd hopener' hnot
  | closing k hopener' => exact absurd hopener' hnot
  | running hopener' => rcases hopener' with h' | h' <;> exact absurd (h' ▸ trivial) hnot
  | spawning hopener' => rcases hopener with h | h <;> cases h.symm.trans hopener'

/-- The map is cleared, and no accept loop runs. -/
theorem Stage.of_spawning (h : Stage s) (hopener : s.opener = .spawning) : s.isOpen = false ∧
    s.clients = ∅ ∧ ∀ m, ¬ (s.loop m).Serving ∧ ¬ (s.closers m).Window := by
  cases h with
  | spawning _ hopen hclients hnone => exact ⟨hopen, hclients, hnone⟩
  | apart hopener' =>
    rw [hopener] at hopener'
    exact hopener'.elim
  | closing k hopener' =>
    rw [hopener] at hopener'
    exact hopener'.elim
  | running hopener' => rcases hopener' with h' | h' <;> cases hopener.symm.trans h'
  | spawned k hopener' => rcases hopener' with h' | ⟨h', -⟩ <;> cases hopener.symm.trans h'

/-- The accept loop of a new session. -/
theorem Orderly.spawn (h : Orderly s) (hopener : s.opener = .spawning) :
    Orderly { s.setAcceptor s.sessions .accepting with
      opener := .storing s.sessions, sessions := s.sessions + 1 } := by
  obtain ⟨hopen, hclients, hnone⟩ := h.stage.of_spawning hopener
  obtain ⟨hacceptor, hcloser⟩ := h.fresh s.sessions (Nat.le_refl _)
  have hn := (acceptors_of_loop hacceptor nofun).1
  have hself := loop_setAcceptor_self hn .accepting
  have hother : ∀ m, m ≠ s.sessions →
      (s.setAcceptor s.sessions .accepting).loop m = s.loop m :=
    fun m hm => loop_setAcceptor_of_ne hm .accepting
  have hinserting : ∀ m k, (s.setAcceptor s.sessions .accepting).loop m = .inserting k ↔
      s.loop m = .inserting k := by
    refine inserting_loop hself hother ?_ nofun
    rw [hacceptor]
    exact nofun
  refine ⟨.spawned s.sessions (.inl rfl) hopen rfl (.inl ?_) hcloser ?_, ?_, ?_, ?_, ?_, ?_⟩
  · show ((s.setAcceptor s.sessions .accepting).loop s.sessions).Serving
    rw [hself]
    trivial
  · intro m hm
    show ¬ ((s.setAcceptor s.sessions .accepting).loop m).Serving ∧ _
    rw [hother m hm]
    exact hnone m
  · exact fun c => (h.placed c).congr .rfl rfl (fun m => hinserting m c) .rfl (fun _ => .rfl) rfl .rfl rfl
  · intro c hc
    have hc : c ∈ s.clients := hc
    rw [hclients] at hc
    cases hc
  · intro m hm
    have hne : m ≠ s.sessions := Nat.ne_of_gt hm
    exact ⟨(hother m hne).trans (h.fresh m (Nat.le_of_succ_le hm)).1, (h.fresh m (Nat.le_of_succ_le hm)).2⟩
  · exact h.ending_setAcceptor hn nofun
  · refine h.settled_of [] rfl nofun (Nat.le_succ _) ?_ fun c hc => .inl ⟨hc, rfl⟩
    intro m hm
    show ((s.setAcceptor s.sessions .accepting).loop m).Serving → _
    rw [hother m (Nat.ne_of_lt hm)]
    exact id

theorem Orderly.open (h : Orderly s) (hturn : Served s .open) (hstep : s.open = some t) : Orderly t := by
  unfold TcpServer.open at hstep
  split at hstep
  next hopener =>
    split at hstep
    · cases hstep
      exact h
    next hclosed =>
      cases hstep
      exact h.same (h.stage.next (hopener ▸ trivial) trivial (absurd · hclosed)) rfl rfl rfl rfl rfl rfl
        rfl rfl rfl
  · cases hstep
  next hopener =>
    cases hstep
    obtain ⟨hclients, hwindow⟩ := hturn hopener
    refine h.same ?_ rfl rfl rfl hclients.symm rfl rfl rfl rfl rfl
    cases h.stage with
    | apart _ hopen hnone => exact .spawning rfl hopen rfl hnone
    | closing n _ _ _ hcloser =>
      refine absurd ?_ (hwindow n)
      rcases hcloser with ⟨hc, -⟩ | ⟨hc, -⟩ <;> rw [hc] <;> trivial
    | running hopener' => rcases hopener' with h' | h' <;> cases hopener.symm.trans h'
    | spawning hopener' => cases hopener.symm.trans hopener'
    | spawned n hopener' => rcases hopener' with h' | ⟨h', -⟩ <;> cases hopener.symm.trans h'
  next hopener =>
    cases hstep
    exact h.spawn hopener
  next n hopener =>
    cases hstep
    obtain ⟨-, hopen, hlast, hacceptor, hcloser, halone⟩ := h.stage.of_spawned (.inl hopener)
    exact h.same (.spawned n (.inr ⟨rfl, rfl⟩) hopen hlast hacceptor hcloser halone) rfl rfl rfl rfl rfl rfl
      rfl rfl rfl
  next n hopener =>
    cases hstep
    obtain ⟨htask, hopen, hlast, hacceptor, hcloser, halone⟩ := h.stage.of_spawned (.inr hopener)
    exact h.same (.running (.inr rfl) rfl hlast (htask hopener) hacceptor hcloser halone) rfl rfl rfl rfl rfl
      rfl rfl rfl rfl
  next hopener =>
    cases hstep
    exact h.same (h.stage.next (hopener ▸ trivial) trivial fun _ => .inl rfl) rfl rfl rfl rfl rfl rfl rfl rfl rfl

theorem Orderly.bound (h : Orderly s) {opener : BindPhase} (hopener : s.opener = .binding)
    (haside : opener.Aside) : Orderly { s with opener := opener } := by
  refine h.same (h.stage.next (hopener ▸ trivial) haside ?_) rfl rfl rfl rfl rfl rfl rfl rfl rfl
  intro hopen
  rcases (h.stage.of_isOpen hopen).1 with h' | h' <;> cases hopener.symm.trans h'

/-! ### Read tasks -/

/-- A step of connection `c` alone. -/
theorem Orderly.conn (h : Orderly s) (hplaced : Placed t c) (events : List ServerEvent)
    (hlog : t.log = events ++ s.log) (hclose : ∀ n, .close n ∉ events)
    (hends : ∀ k, k ≠ c → .connectionClose k ∉ events) (hgenerated : t.generated = s.generated)
    (howner : t.owner = s.owner) (hacceptors : t.loop = s.loop)
    (hclosers : t.closers = s.closers) (hsessions : t.sessions = s.sessions)
    (hsession : t.session = s.session) (hopener : t.opener = s.opener) (hopen : t.isOpen = s.isOpen)
    (htask : t.acceptTask = s.acceptTask) (hclients : ∀ k, k ≠ c → (k ∈ t.clients ↔ k ∈ s.clients))
    (hsub : c ∈ t.clients → c ∈ s.clients) (hreaders : ∀ k, k ≠ c → t.readers k = s.readers k)
    (haborted : t.abortedReads = s.abortedReads) : Orderly t := by
  have hsubset : ∀ k ∈ t.clients, k ∈ s.clients := by
    intro k hk
    by_cases hkc : k = c
    · subst hkc
      exact hsub hk
    · exact (hclients k hkc).mp hk
  refine ⟨?_, ?_, ?_, ?_, ?_, ?_⟩
  · refine h.stage.congr hopener hopen hsessions hsession htask ?_ (fun m => by rw [hacceptors])
      (fun m => by rw [hacceptors]; exact id) fun m => .inl (by rw [hclosers])
    intro hempty _
    apply Finset.eq_empty_of_forall_notMem
    intro k hk
    have hk := hsubset k hk
    rw [hempty] at hk
    cases hk
  · intro k
    by_cases hk : k = c
    · rw [hk]
      exact hplaced
    · refine (h.placed k).congr (by rw [hgenerated]) (by rw [howner]) (fun m => by rw [hacceptors])
        (hclients k hk) (fun m => by simp only [Drained, hclosers]) (hreaders k hk) (by rw [haborted]) ?_
      rw [ends, ends, hlog, List.count_append, List.count_eq_zero.mpr (hends k hk), Nat.zero_add]
  · intro k hk
    rw [howner, hsessions, hclosers]
    exact h.client k (hsubset k hk)
  · rw [hsessions, hacceptors, hclosers]
    exact h.fresh
  · rw [hacceptors, hclosers]
    exact h.ending
  · refine h.settled_of events hlog hclose (Nat.le_of_eq hsessions.symm) ?_ ?_
    · exact fun m _ => by rw [hacceptors]; exact id
    · intro k hk
      rw [hgenerated] at hk
      exact .inl ⟨hk, by rw [howner]⟩

/-- A read task gets the result of its read. -/
theorem Orderly.read (h : Orderly s) (events : List ServerEvent) {phase : TaskPhase}
    (hbefore : (s.readers c).Reading) (hafter : phase.Reading)
    (hevents : ∀ e ∈ events, ∀ k, e ≠ .close k ∧ e ≠ .connectionClose k) :
    Orderly { s.setReader c phase with log := events ++ s.log } := by
  have hself := readers_setReader_self s c phase
  have hnot : (s.setReader c phase).readers c ≠ .announcing := by
    rw [hself]
    rintro rfl
    exact hafter
  have hreading : ((s.setReader c phase).readers c).Reading := by
    rw [hself]
    exact hafter
  have hends : ends { s.setReader c phase with log := events ++ s.log } c = s.ends c := by
    have hnone : events.count (.connectionClose c) = 0 :=
      List.count_eq_zero.mpr fun hmem => (hevents _ hmem c).2 rfl
    rw [ends, ends, List.count_append, hnone, Nat.zero_add]
  have hplaced := h.placed c
  refine h.conn ⟨?_, ?_, ?_, ?_, ?_, ?_, ?_⟩ events rfl (fun n hmem => (hevents _ hmem n).1 rfl)
    (fun k _ hmem => (hevents _ hmem k).2 rfl) rfl rfl rfl rfl rfl rfl rfl rfl rfl (fun _ _ => .rfl) id
    (fun k hk => readers_setReader_of_ne hk phase) rfl
  · intro hc
    rcases hplaced.place hc with hp | hp | hp | hp | hp
    · exact .inl hp
    · exact .inr (.inl hp)
    · exact .inr (.inr (.inl hp))
    · rw [hp] at hbefore
      exact hbefore.elim
    · exact .inr (.inr (.inr (.inr (hends.trans hp))))
  · intro n hn
    obtain ⟨hc, howner, hclient, -, hzero⟩ := hplaced.inserting n hn
    exact ⟨hc, howner, hclient, hreading, hends.trans hzero⟩
  · intro hclient
    obtain ⟨hc, -, hzero⟩ := hplaced.held hclient
    exact ⟨hc, hreading, hends.trans hzero⟩
  · intro n hn
    obtain ⟨hc, howner, hclient, -, hzero⟩ := hplaced.drained n hn
    exact ⟨hc, howner, hclient, .inl hreading, hends.trans hzero⟩
  · exact fun hp => absurd hp hnot
  · exact fun haborted => hends.trans (hplaced.aborted haborted)
  · intro hc
    rw [(hplaced.future hc).1] at hbefore
    exact hbefore.elim

/-- A read task that has left its loop takes its entry out of the map. -/
theorem Orderly.remove (h : Orderly s) (hturn : Served s (.reader c)) (hreader : s.readers c = .leaving) :
    Orderly { s.setReader c (if c ∈ s.clients then .announcing else .ended) with
      clients := s.clients.erase c } := by
  have hplaced := h.placed c
  have hnotin : ∀ n, s.loop n ≠ .inserting c := by
    intro n hn
    have howner := (hplaced.inserting n hn).2.1
    exact hturn hreader (howner ▸ (acceptors_of_loop hn nofun).2)
  have herase : c ∉ s.clients.erase c := Finset.notMem_erase c s.clients
  have hconn : ∀ phase, Placed { s.setReader c phase with clients := s.clients.erase c } c →
      Orderly { s.setReader c phase with clients := s.clients.erase c } := by
    intro phase hp
    refine h.conn hp [] rfl nofun nofun rfl rfl rfl rfl rfl rfl rfl rfl rfl ?_ (absurd · herase) ?_ ?_
    · exact fun k hk => ⟨Finset.mem_of_mem_erase, Finset.mem_erase_of_ne_of_mem hk⟩
    · exact fun k hk => readers_setReader_of_ne hk phase
    · rfl
  by_cases hclient : c ∈ s.clients
  · rw [if_pos hclient]
    have hself := readers_setReader_self s c .announcing
    obtain ⟨hc, -, hzero⟩ := hplaced.held hclient
    refine hconn _ ⟨fun _ => .inr (.inr (.inr (.inl hself))), ?_, (absurd · herase), ?_,
      fun _ => ⟨hc, herase, hzero⟩, hplaced.aborted, fun hge => absurd hc (Nat.not_lt.mpr hge)⟩
    · exact fun n hn => absurd hn (hnotin n)
    · exact fun n hn => absurd hclient (hplaced.drained n hn).2.2.1
  · rw [if_neg hclient]
    have hself := readers_setReader_self s c .ended
    refine hconn _ ⟨?_, ?_, (absurd · herase), ?_, ?_, hplaced.aborted, ?_⟩
    · intro hc
      rcases hplaced.place hc with hp | hp | hp | hp | hp
      · exact absurd hp (hnotin _)
      · exact absurd hp hclient
      · exact .inr (.inr (.inl hp))
      · cases hreader.symm.trans hp
      · exact .inr (.inr (.inr (.inr hp)))
    · exact fun n hn => absurd hn (hnotin n)
    · intro n hn
      obtain ⟨hc, howner, -, -, hzero⟩ := hplaced.drained n hn
      exact ⟨hc, howner, herase, .inr hself, hzero⟩
    · exact fun hp => nomatch hself.symm.trans hp
    · intro hc
      cases hreader.symm.trans (hplaced.future hc).1

/-- A read task announces the end of its connection. -/
theorem Orderly.announce (h : Orderly s) (hreader : s.readers c = .announcing) :
    Orderly ((s.setReader c .ended).send (.connectionClose c)) := by
  have hplaced := h.placed c
  have hself := readers_setReader_self s c .ended
  obtain ⟨hc, hclient, hzero⟩ := hplaced.announcing hreader
  have hends : ((s.setReader c .ended).send (.connectionClose c)).ends c = 1 :=
    (ends_send _ c).trans (congrArg (· + 1) hzero)
  refine h.conn ⟨fun _ => .inr (.inr (.inr (.inr hends))), ?_, (absurd · hclient), ?_, ?_, fun _ => hends, ?_⟩
    [.connectionClose c] rfl (by simp) (by simp) rfl rfl rfl rfl rfl rfl rfl rfl rfl (fun _ _ => .rfl) id
    (fun k hk => readers_setReader_of_ne hk .ended) rfl
  · intro n hn
    have hreading := (hplaced.inserting n hn).2.2.2.1
    rw [hreader] at hreading
    exact hreading.elim
  · intro n hn
    rcases (hplaced.drained n hn).2.2.2.1 with hreading | hended
    · rw [hreader] at hreading
      exact hreading.elim
    · cases hreader.symm.trans hended
  · exact fun hp => nomatch hself.symm.trans hp
  · exact fun hge => absurd hc (Nat.not_lt.mpr hge)

/-- A read task that `close` has aborted ends. -/
theorem Orderly.stopRead (h : Orderly s) (hstep : s.stopRead c = some t) : Orderly t := by
  have hended : c ∈ s.abortedReads → (s.readers c).Reading → Orderly (s.setReader c .ended) := by
    intro haborted hreading
    have hplaced := h.placed c
    have hself := readers_setReader_self s c .ended
    -- Its connection was announced when it was aborted.
    have hends : s.ends c = 1 := hplaced.aborted haborted
    have hnot : ∀ {p : Prop}, s.ends c = 0 → p := fun hzero => nomatch hends.symm.trans hzero
    refine h.conn ⟨fun _ => .inr (.inr (.inr (.inr hends))), ?_, ?_, ?_, ?_, fun _ => hends, ?_⟩ [] rfl nofun
      nofun rfl rfl rfl rfl rfl rfl rfl rfl rfl (fun _ _ => .rfl) id
      (fun k hk => readers_setReader_of_ne hk .ended) rfl
    · exact fun n hn => hnot (hplaced.inserting n hn).2.2.2.2
    · exact fun hclient => hnot (hplaced.held hclient).2.2
    · exact fun n hn => hnot (hplaced.drained n hn).2.2.2.2
    · exact fun hr => nomatch hself.symm.trans hr
    · exact fun hge => hnot (hplaced.future hge).2
  unfold TcpServer.stopRead at hstep
  split at hstep
  next haborted =>
    split at hstep
    next hreader =>
      cases hstep
      exact hended haborted (hreader ▸ trivial)
    next hreader =>
      cases hstep
      exact hended haborted (hreader ▸ trivial)
    · cases hstep
  · cases hstep

/-! ### Accept loops -/

/-- A connection is accepted. -/
theorem Orderly.acceptOk (h : Orderly s) (haccepting : s.loop n = .accepting) :
    Orderly (s.accept n (.ok ())) := by
  have hserving : (s.loop n).Serving := haccepting ▸ trivial
  have hn := (acceptors_of_loop haccepting nofun).1
  have hself := loop_setAcceptor_self hn (.inserting s.generated)
  have hsame : ∀ m, ((s.setAcceptor n (.inserting s.generated)).loop m).Serving ↔
      (s.loop m).Serving :=
    serving_loop hself (fun m hm => loop_setAcceptor_of_ne hm _) (iff_of_true trivial hserving)
  have hreaders : (s.accept n (.ok ())).readers s.generated = .reading := Function.update_self ..
  have howner : (s.accept n (.ok ())).owner s.generated = n := Function.update_self ..
  have howners : ∀ k, k ≠ s.generated → (s.accept n (.ok ())).owner k = s.owner k :=
    fun k hk => Function.update_of_ne hk _ _
  have hinserting : ∀ m k, k ≠ s.generated →
      ((s.accept n (.ok ())).loop m = .inserting k ↔ s.loop m = .inserting k) := by
    intro m k hk
    show (s.setAcceptor n (.inserting s.generated)).loop m = _ ↔ _
    by_cases hm : m = n
    · rw [hm, hself, haccepting]
      exact iff_of_false (fun heq => hk (AcceptPhase.inserting.inj heq).symm) nofun
    · rw [loop_setAcceptor_of_ne hm]
  have hnew := h.placed s.generated
  have hge : ¬ s.generated < s.generated := Nat.lt_irrefl _
  have hzero := (hnew.future (Nat.le_refl _)).2
  have hclient : s.generated ∉ s.clients := fun hc => hge (hnew.held hc).1
  refine ⟨?_, ?_, ?_, ?_, ?_, ?_⟩
  · exact h.stage.congr rfl rfl rfl rfl rfl (fun hc _ => hc) hsame
      (fun m => ended_setAcceptor hserving) fun _ => .inl rfl
  · intro c
    by_cases hc : c = s.generated
    · subst hc
      refine ⟨?_, ?_, ?_, ?_, ?_, hnew.aborted, ?_⟩
      · exact fun _ => .inl (howner.symm ▸ hself)
      · intro m hm
        have hmn : m = n := by
          by_contra hne
          exact hge (hnew.inserting m ((loop_setAcceptor_of_ne hne _).symm.trans hm)).1
        exact ⟨Nat.lt_succ_self _, howner.trans hmn.symm, hclient, hreaders ▸ trivial, hzero⟩
      · exact fun hc => absurd hc hclient
      · exact fun m hm => absurd (hnew.drained m hm).1 hge
      · exact fun hr => nomatch hreaders.symm.trans hr
      · exact fun hc => absurd (Nat.lt_succ_self _) (Nat.not_lt.mpr hc)
    · refine (h.placed c).congr ?_ (howners c hc) (fun m => hinserting m c hc) .rfl (fun _ => .rfl)
        (readers_setReader_of_ne hc .reading) .rfl rfl
      show c < s.generated + 1 ↔ _
      omega
  · intro c hc
    have hne : c ≠ s.generated := by
      rintro rfl
      exact hclient hc
    rw [howners c hne]
    exact h.client c hc
  · refine h.fresh_setAcceptor ?_ _
    rw [haccepting]
    nofun
  · exact h.ending_setAcceptor hn nofun
  · refine h.settled_of [] rfl nofun (Nat.le_refl _) ?_ ?_
    · exact fun m _ => (hsame m).mp
    · intro c hc
      by_cases hne : c = s.generated
      · rw [hne, howner]
        exact .inr hserving
      · have hc : c < s.generated + 1 := hc
        exact .inl ⟨by omega, howners c hne⟩

/-- The entry of an accepted connection is inserted. -/
theorem Orderly.insertEntry (h : Orderly s) (hinserting : s.loop n = .inserting c) :
    Orderly { s.setAcceptor n .accepting with clients := insert c s.clients } := by
  have hserving : (s.loop n).Serving := hinserting ▸ trivial
  have hn := (acceptors_of_loop hinserting nofun).1
  have hself := loop_setAcceptor_self hn .accepting
  have hsame : ∀ m, ((s.setAcceptor n .accepting).loop m).Serving ↔ (s.loop m).Serving :=
    serving_loop hself (fun m hm => loop_setAcceptor_of_ne hm _) (iff_of_true trivial hserving)
  obtain ⟨hc, howner, hclient, hreading, hzero⟩ := (h.placed c).inserting n hinserting
  have hdrained : ∀ m, ¬ s.Drained m c := by
    intro m hm
    have hmn : m = n := (((h.placed c).drained m hm).2.1).symm.trans howner
    exact h.not_drained hserving (hmn ▸ hm)
  have hnotin : ∀ m k, (s.setAcceptor n .accepting).loop m = .inserting k →
      m ≠ n ∧ s.loop m = .inserting k := by
    intro m k hm
    have hne : m ≠ n := by
      rintro rfl
      cases hself.symm.trans hm
    exact ⟨hne, (loop_setAcceptor_of_ne hne _).symm.trans hm⟩
  refine ⟨?_, ?_, ?_, ?_, ?_, ?_⟩
  · refine h.stage.congr rfl rfl rfl rfl rfl ?_ hsame (fun m => ended_setAcceptor hserving)
      fun _ => .inl rfl
    intro _ hopener
    exact absurd hserving ((h.stage.of_spawning hopener).2.2 n).1
  · intro k
    by_cases hk : k = c
    · subst hk
      refine ⟨fun _ => .inr (.inl (Finset.mem_insert_self _ _)), ?_, fun _ => ⟨hc, hreading, hzero⟩,
        fun m hm => absurd hm (hdrained m), ?_, (h.placed k).aborted, fun hge => absurd hc (Nat.not_lt.mpr hge)⟩
      · intro m hm
        obtain ⟨hne, hm⟩ := hnotin m k hm
        exact absurd (((h.placed k).inserting m hm).2.1.symm.trans howner) hne
      · intro hr
        have hr : s.readers k = .announcing := hr
        rw [hr] at hreading
        exact hreading.elim
    · refine (h.placed k).congr .rfl rfl ?_ ?_ (fun _ => .rfl) rfl .rfl rfl
      · intro m
        refine ⟨fun hm => (hnotin m k hm).2, fun hm => ?_⟩
        have hne : m ≠ n := by
          rintro rfl
          exact hk (AcceptPhase.inserting.inj (hm.symm.trans hinserting))
        exact (loop_setAcceptor_of_ne hne _).trans hm
      · exact ⟨fun hm => (Finset.mem_insert.mp hm).resolve_left hk, Finset.mem_insert_of_mem⟩
  · intro k hk
    rcases Finset.mem_insert.mp hk with rfl | hk
    · obtain ⟨hlast, hcloser⟩ := h.stage.of_serving hserving
      refine ⟨howner ▸ hlast, ?_⟩
      show (s.closers (s.owner k)).Before
      rw [howner]
      rcases hcloser with ⟨-, -, hc⟩ | ⟨-, -, hc⟩ | ⟨-, hc⟩ <;> rw [hc] <;> trivial
    · exact h.client k hk
  · refine h.fresh_setAcceptor ?_ _
    rw [hinserting]
    nofun
  · exact h.ending_setAcceptor hn nofun
  · exact h.settled_of [] rfl nofun (Nat.le_refl _) (fun m _ => (hsame m).mp) fun k hk => .inl ⟨hk, rfl⟩

/-- The listener of an accept loop has failed. -/
theorem Orderly.acceptError (h : Orderly s) (haccepting : s.loop n = .accepting) (message : String) :
    Orderly (s.accept n (.error message)) := by
  have hserving : (s.loop n).Serving := haccepting ▸ trivial
  have hn := (acceptors_of_loop haccepting nofun).1
  have hself := loop_setAcceptor_self hn .failed
  have hother : ∀ m, m ≠ n → (s.setAcceptor n .failed).loop m = s.loop m :=
    fun m hm => loop_setAcceptor_of_ne hm .failed
  have hborn : s.loop n ≠ .unborn := by
    rw [haccepting]
    nofun
  have hsame : ∀ m, ((s.setAcceptor n .failed).loop m).Serving ↔ (s.loop m).Serving :=
    serving_loop hself hother (iff_of_true trivial hserving)
  refine h.quiet ?_ [.error (.connectionError message)] rfl (by simp) rfl rfl rfl rfl rfl rfl ?_
    (fun m => (hsame m).mp) ?_ ?_ (fun _ _ => .rfl) (fun _ => id) fun _ _ => rfl
  · exact h.stage.congr rfl rfl rfl rfl rfl (fun hc _ => hc) hsame (fun m => ended_setAcceptor hserving)
      fun _ => .inl rfl
  · refine inserting_loop hself hother ?_ nofun
    rw [haccepting]
    exact nofun
  · exact fun m hm _ => (h.fresh_setAcceptor hborn _ m hm).1
  · exact h.ending_setAcceptor hn nofun

/-- An accept loop whose listener has failed swaps `is_open`. -/
theorem Orderly.leave (h : Orderly s) (hfailed : s.loop n = .failed) :
    Orderly { s.setAcceptor n (if s.isOpen then .closing else .ended) with isOpen := false } := by
  have hserving : (s.loop n).Serving := hfailed ▸ trivial
  have hn := (acceptors_of_loop hfailed nofun).1
  have hborn : s.loop n ≠ .unborn := by
    rw [hfailed]
    nofun
  have hquiet : ∀ phase : AcceptPhase, ¬ phase.Serving → (phase = .closing → s.closers n = .idle) →
      Stage { s.setAcceptor n phase with isOpen := false } →
      Orderly { s.setAcceptor n phase with isOpen := false } := by
    intro phase hnot hidle hstage
    have hself := loop_setAcceptor_self hn phase
    have hother : ∀ m, m ≠ n → (s.setAcceptor n phase).loop m = s.loop m :=
      fun m hm => loop_setAcceptor_of_ne hm phase
    refine h.quiet hstage [] rfl nofun rfl rfl rfl rfl rfl rfl ?_ (serving_of_loop hself hother hnot) ?_ ?_
      (fun _ _ => .rfl) (fun _ => id) fun _ _ => rfl
    · refine inserting_loop hself hother ?_ ?_
      · rw [hfailed]
        exact nofun
      · rintro k rfl
        exact hnot trivial
    · exact fun m hm _ => (h.fresh_setAcceptor hborn phase m hm).1
    · exact h.ending_setAcceptor hn hidle
  have halone' : ∀ phase k, s.Alone k → k = n →
      TcpServer.Alone { s.setAcceptor n phase with isOpen := false } k := by
    intro phase k halone hk m hm
    show ¬ ((s.setAcceptor n phase).loop m).Serving ∧ _
    rw [loop_setAcceptor_of_ne (hk ▸ hm)]
    exact halone m hm
  obtain ⟨hlast, hcase⟩ := h.stage.of_serving hserving
  rcases hcase with ⟨hopener, hopen, hcloser⟩ | ⟨hopen, rfl, hcloser⟩ | ⟨hopen, hcloser⟩
  · rw [hopen, if_neg Bool.false_ne_true]
    obtain ⟨htask, -, -, -, -, halone⟩ := h.stage.of_spawned hopener
    refine hquiet .ended id nofun (.spawned n ?_ rfl hlast ?_ hcloser (halone' _ n halone rfl))
    · exact hopener.imp_right fun hraising => ⟨hraising, htask hraising⟩
    · exact .inr (loop_setAcceptor_self hn .ended)
  · rw [if_pos hopen]
    obtain ⟨hopener, -, -, -, -, halone⟩ := h.stage.of_isOpen hopen
    refine hquiet .closing id (fun _ => hcloser) (.apart ?_ rfl ?_)
    · rcases hopener with h' | h' <;> exact h' ▸ trivial
    · intro m
      by_cases hm : m = s.session
      · show ¬ ((s.setAcceptor s.session .closing).loop m).Serving ∧ ¬ (s.closers m).Window
        rw [hm, loop_setAcceptor_self hn, hcloser]
        exact ⟨id, id⟩
      · exact halone' .closing _ halone rfl m hm
  · rw [hopen, if_neg Bool.false_ne_true]
    have hwindow : (s.closers n).Window := hcloser ▸ trivial
    obtain ⟨hopener, -, -, hclosing, halone⟩ := h.stage.of_window hwindow
    refine hquiet .ended id nofun (.closing n hopener rfl hlast ?_ (halone' _ n halone rfl))
    rcases hclosing with hc | ⟨hc, -⟩
    · exact .inl hc
    · cases hcloser.symm.trans hc

/-! ### Close events -/

/-- A connection in none of the other places was announced. -/
theorem Placed.announced (h : Placed s c) (hc : c < s.generated)
    (hinserting : s.loop (s.owner c) ≠ .inserting c) (hclient : c ∉ s.clients)
    (hdrained : ¬ s.Drained (s.owner c) c) (hannouncing : s.readers c ≠ .announcing) : s.ends c = 1 := by
  rcases h.place hc with hp | hp | hp | hp | hp
  · exact absurd hp hinserting
  · exact absurd hp hclient
  · exact absurd hp hdrained
  · exact absurd hp hannouncing
  · exact hp

/-- The close event of a session all of whose connections were announced. -/
theorem Orderly.settled_close (h : Orderly s) (hlog : t.log = .close n :: s.log)
    (hgenerated : t.generated = s.generated) (howner : t.owner = s.owner)
    (hsessions : t.sessions = s.sessions)
    (hserving : ∀ m, (t.loop m).Serving → (s.loop m).Serving)
    (hnot : ¬ (s.loop n).Serving) (hlt : n < s.sessions)
    (hends : ∀ c, c < s.generated → s.owner c = n → s.ends c = 1) :
    ∀ newer older k, t.log = newer ++ .close k :: older →
      ¬ (t.loop k).Serving ∧ k < t.sessions ∧
        ∀ c, c < t.generated → t.owner c = k → older.count (.connectionClose c) = 1 := by
  intro newer older k hsplit
  rw [hlog] at hsplit
  rw [hgenerated, howner, hsessions]
  rcases List.cons_eq_append_iff.mp hsplit with ⟨rfl, hcons⟩ | ⟨rest, rfl, hold⟩
  · cases hcons
    exact ⟨fun hs => hnot (hserving _ hs), hlt, hends⟩
  · obtain ⟨hnot', hlt', hends'⟩ := h.settled rest older k hold
    exact ⟨fun hs => hnot' (hserving _ hs), hlt', hends'⟩

/-- An accept loop that has ended the session sends the close event. -/
theorem Orderly.acceptorClose (h : Orderly s) (hturn : Served s (.acceptor n))
    (hclosing : s.loop n = .closing) : Orderly ((s.setAcceptor n .ended).send (.close n)) := by
  have hn := (acceptors_of_loop hclosing nofun).1
  have hself := loop_setAcceptor_self hn .ended
  have hother : ∀ m, m ≠ n → (s.setAcceptor n .ended).loop m = s.loop m :=
    fun m hm => loop_setAcceptor_of_ne hm .ended
  have hnot : ¬ (s.loop n).Serving := by
    rw [hclosing]
    exact id
  have hserving : ∀ m, ((s.setAcceptor n .ended).loop m).Serving ↔ (s.loop m).Serving :=
    serving_loop hself hother (iff_of_false id hnot)
  have hinserting : ∀ m k, (s.setAcceptor n .ended).loop m = .inserting k ↔
      s.loop m = .inserting k := by
    refine inserting_loop hself hother ?_ nofun
    rw [hclosing]
    exact nofun
  have hborn : s.loop n ≠ .unborn := by
    rw [hclosing]
    nofun
  have hlt : n < s.sessions := by
    by_contra hge
    exact hborn (h.fresh n (Nat.le_of_not_lt hge)).1
  refine ⟨?_, ?_, h.client, ?_, ?_, ?_⟩
  · refine h.stage.congr rfl rfl rfl rfl rfl (fun hc _ => hc) hserving ?_ fun _ => .inl rfl
    intro m hm
    by_cases hmn : m = n
    · exact hmn ▸ hself
    · exact (hother m hmn).trans hm
  · intro c
    refine (h.placed c).congr .rfl rfl (fun m => hinserting m c) .rfl (fun _ => .rfl) rfl .rfl ?_
    simp [ends, send, setAcceptor]
  · exact h.fresh_setAcceptor hborn .ended
  · exact h.ending_setAcceptor hn nofun
  · refine h.settled_close rfl rfl rfl rfl (fun m => (hserving m).mp) hnot hlt ?_
    intro c hc howner
    obtain ⟨hannouncing, hclient⟩ := hturn.2 (acceptors_of_loop hclosing nofun).2 c howner
    refine (h.placed c).announced hc ?_ hclient ?_ hannouncing
    · rw [howner, hclosing]
      nofun
    · rintro ⟨drained, hdrained, -⟩
      rw [howner, h.ending n hclosing] at hdrained
      cases hdrained

theorem Orderly.acceptor (h : Orderly s) (hturn : Served s (.acceptor n)) (hstep : s.acceptor n = some t) :
    Orderly t := by
  unfold TcpServer.acceptor at hstep
  split at hstep
  next c hinserting =>
    cases hstep
    exact h.insertEntry ((loop_of_notMem hturn.1).trans hinserting)
  next hfailed =>
    cases hstep
    exact h.leave ((loop_of_notMem hturn.1).trans hfailed)
  next hclosing =>
    cases hstep
    exact h.acceptorClose hturn ((loop_of_notMem hturn.1).trans hclosing)
  · cases hstep

/-- An accept loop that `close` has aborted ends. -/
theorem Orderly.stopLoop (h : Orderly s) (hstep : s.stopLoop n = some t) : Orderly t := by
  have hended : n ∈ s.abortedLoops → Orderly (s.setAcceptor n .ended) := by
    intro haborted
    have hloop : (s.setAcceptor n .ended).loop = s.loop := by
      funext m
      by_cases hm : m = n
      · rw [hm, loop_of_mem haborted]
        exact loop_of_mem (s := s.setAcceptor n .ended) haborted
      · exact loop_setAcceptor_of_ne hm .ended
    refine h.same ?_ rfl rfl rfl rfl rfl rfl rfl hloop rfl
    exact h.stage.congr rfl rfl rfl rfl rfl (fun hc _ => hc) (fun m => by rw [hloop])
      (fun m => by rw [hloop]; exact id) fun _ => .inl rfl
  unfold TcpServer.stopLoop at hstep
  split at hstep
  next haborted =>
    split at hstep <;> cases hstep <;> exact hended haborted
  · cases hstep

/-! ### `close` -/

theorem Orderly.callClose (h : Orderly s) (hopen : s.isOpen = true) :
    Orderly { s.setCloser s.session .stopping with isOpen := false } := by
  obtain ⟨hopener, hlast, htask, hacceptor, hcloser, halone⟩ := h.stage.of_isOpen hopen
  have hself := closers_setCloser_self s s.session .stopping
  have hother : ∀ m, m ≠ s.session → (s.setCloser s.session .stopping).closers m = s.closers m :=
    fun m hm => closers_setCloser_of_ne hm .stopping
  refine h.quiet (.closing s.session ?_ rfl hlast (.inl ⟨hself, htask⟩) ?_) [] rfl nofun rfl rfl rfl rfl rfl
    rfl (fun _ _ => .rfl) (fun _ => id) (fun _ _ => id) ?_ ?_ ?_ ?_
  · rcases hopener with h' | h' <;> exact h' ▸ trivial
  · intro m hm
    show _ ∧ ¬ ((s.setCloser s.session .stopping).closers m).Window
    rw [hother m hm]
    exact halone m hm
  · intro m hm
    have hm : s.loop m = .closing := hm
    have hne : m ≠ s.session := by
      rintro rfl
      rw [hm] at hacceptor
      rcases hacceptor with hs | hended
      · exact hs
      · cases hended
    exact (hother m hne).trans (h.ending m hm)
  · refine releasing_setCloser ?_ nofun
    rw [hcloser]
    exact nofun
  · intro m hb
    show ((s.setCloser s.session .stopping).closers m).Before
    by_cases hm : m = s.session
    · rw [hm, hself]
      trivial
    · rwa [hother m hm]
  · intro m hm
    exact hother m (by omega)

/-- The `close` of the session aborts its accept loop. -/
theorem Orderly.stop (h : Orderly s) (hturn : Served s (.close n)) (hcloser : s.closers n = .stopping) :
    s.acceptTask = some n ∧
      Orderly { s.setCloser n .draining with
        acceptTask := none, abortedLoops := insert n s.abortedLoops } := by
  have hwindow : (s.closers n).Window := hcloser ▸ trivial
  obtain ⟨hopener, hopen, hlast, hclosing, halone⟩ := h.stage.of_window hwindow
  have htask : s.acceptTask = some n := by
    rcases hclosing with ⟨-, htask⟩ | ⟨hc, -⟩
    · exact htask
    · cases hcloser.symm.trans hc
  refine ⟨htask, ?_⟩
  have hcself := closers_setCloser_self s n .draining
  have hcother : ∀ m, m ≠ n → (s.setCloser n .draining).closers m = s.closers m :=
    fun m hm => closers_setCloser_of_ne hm .draining
  generalize ht : ({ s.setCloser n .draining with
    acceptTask := none, abortedLoops := insert n s.abortedLoops } : TcpServer) = t
  obtain ⟨haself, haother⟩ : t.loop n = .ended ∧ ∀ m, m ≠ n → t.loop m = s.loop m :=
    loop_of_insert (by rw [← ht]) (by rw [← ht]; rfl)
  have hserving : ∀ m, (t.loop m).Serving → (s.loop m).Serving := serving_of_loop haself haother id
  have hclosers : t.closers = (s.setCloser n .draining).closers := by rw [← ht]
  rw [← hclosers] at hcself hcother
  refine h.quiet (.closing n ?_ ?_ ?_ (.inr ⟨hcself, ?_⟩) ?_) [] ?_ nofun ?_ ?_ ?_ ?_ ?_ ?_ ?_ hserving ?_ ?_
    ?_ ?_ ?_
  any_goals (subst ht; assumption)
  any_goals (subst ht; rfl)
  · rw [haself]
    exact id
  · intro m hm
    refine ⟨fun hs => (halone m hm).1 (hserving m hs), ?_⟩
    rw [hcother m hm]
    exact (halone m hm).2
  · refine inserting_loop haself haother ?_ nofun
    exact fun k hk => hturn.1 hcloser n htask k (acceptors_of_loop hk nofun).2
  · intro m hm hacceptor
    have hne : m ≠ n := by omega
    exact (haother m hne).trans hacceptor
  · intro m hm
    have hne : m ≠ n := by
      rintro rfl
      cases haself.symm.trans hm
    exact (hcother m hne).trans (h.ending m ((haother m hne).symm.trans hm))
  · rw [hclosers]
    refine releasing_setCloser ?_ nofun
    rw [hcloser]
    exact nofun
  · intro m hb
    by_cases hm : m = n
    · rw [hm, hcself]
      trivial
    · rwa [hcother m hm]
  · intro m hm
    exact hcother m (by omega)

/-- The `close` of the session drains the map. -/
theorem Orderly.drain (h : Orderly s) (hcloser : s.closers n = .draining) :
    Orderly { s.setCloser n (.releasing s.clients) with clients := ∅ } := by
  have hwindow : (s.closers n).Window := hcloser ▸ trivial
  obtain ⟨hopener, hopen, hlast, hclosing, halone⟩ := h.stage.of_window hwindow
  have hself := closers_setCloser_self s n (.releasing s.clients)
  have hother : ∀ m, m ≠ n → (s.setCloser n (.releasing s.clients)).closers m = s.closers m :=
    fun m hm => closers_setCloser_of_ne hm _
  have hnone : ∀ c, ¬ s.Drained n c := by
    rintro c ⟨drained, hc, -⟩
    cases hcloser.symm.trans hc
  refine ⟨.apart hopener hopen ?_, ?_, nofun, ?_, ?_, ?_⟩
  · intro m
    show _ ∧ ¬ ((s.setCloser n (.releasing s.clients)).closers m).Window
    by_cases hm : m = n
    · rw [hm, hself]
      rcases hclosing with ⟨hc, -⟩ | ⟨-, hnot⟩
      · cases hcloser.symm.trans hc
      · exact ⟨hnot, id⟩
    · rw [hother m hm]
      exact halone m hm
  · intro c
    have hplaced := h.placed c
    by_cases hclient : c ∈ s.clients
    · obtain ⟨hc, hreading, hzero⟩ := hplaced.held hclient
      have howner : s.owner c = n := by
        have hsession := (h.client c hclient).1
        omega
      refine ⟨fun _ => .inr (.inr (.inl ⟨s.clients, ?_, hclient⟩)), ?_, nofun, ?_, ?_, hplaced.aborted, ?_⟩
      · exact howner ▸ hself
      · exact fun m hm => absurd hclient (hplaced.inserting m hm).2.2.1
      · intro m hm
        by_cases hmn : m = n
        · exact ⟨hc, howner.trans hmn.symm, Finset.notMem_empty c, .inl hreading, hzero⟩
        · exact absurd hclient (hplaced.drained m ((drained_congr (hother m hmn)).mp hm)).2.2.1
      · intro hr
        have hr : s.readers c = .announcing := hr
        rw [hr] at hreading
        exact hreading.elim
      · exact fun hge => absurd hc (Nat.not_lt.mpr hge)
    · refine hplaced.congr .rfl rfl (fun _ => .rfl) (iff_of_false nofun hclient) ?_ rfl .rfl rfl
      intro m
      by_cases hm : m = n
      · rw [hm]
        exact iff_of_false (mt (drained_iff hself).mp hclient) (hnone c)
      · exact drained_congr (hother m hm)
  · intro m hm
    have hm : s.sessions ≤ m := hm
    have hne : m ≠ n := by omega
    exact ⟨(h.fresh m hm).1, (hother m hne).trans (h.fresh m hm).2⟩
  · intro m hm
    have hne : m ≠ n := by
      rintro rfl
      cases hcloser.symm.trans (h.ending m hm)
    exact (hother m hne).trans (h.ending m hm)
  · exact h.settled_of [] rfl nofun (Nat.le_refl _) (fun _ _ => id) fun c hc => .inl ⟨hc, rfl⟩

/-- A step of a `close` that has drained the map. -/
theorem Orderly.past (h : Orderly s) (hcloser : ¬ (s.closers n).Before) (hafter : ¬ (t.closers n).Window)
    (hothers : ∀ m, m ≠ n → t.closers m = s.closers m) (hopener : t.opener = s.opener)
    (hopen : t.isOpen = s.isOpen) (hsessions : t.sessions = s.sessions) (hsession : t.session = s.session)
    (htask : t.acceptTask = s.acceptTask) (hclients : t.clients = s.clients) (howner : t.owner = s.owner)
    (hacceptors : t.loop = s.loop) (hplaced : ∀ c, Placed t c)
    (hsettled : ∀ newer older k, t.log = newer ++ .close k :: older →
      ¬ (t.loop k).Serving ∧ k < t.sessions ∧
        ∀ c, c < t.generated → t.owner c = k → older.count (.connectionClose c) = 1) : Orderly t := by
  have hkept : ∀ m, (s.closers m).Before → t.closers m = s.closers m := by
    intro m hb
    apply hothers
    rintro rfl
    exact hcloser hb
  have hidle : ∀ m, s.closers m = .idle → t.closers m = .idle :=
    fun m hm => (hkept m (hm ▸ trivial)).trans hm
  refine ⟨?_, hplaced, ?_, ?_, ?_, hsettled⟩
  · refine h.stage.congr hopener hopen hsessions hsession htask ?_ (fun m => by rw [hacceptors]) ?_ ?_
    · exact fun hempty _ => hclients.trans hempty
    · exact fun m => by rw [hacceptors]; exact id
    · intro m
      by_cases hm : m = n
      · exact .inr (hm ▸ ⟨hafter, hcloser⟩)
      · exact .inl (hothers m hm)
  · intro c hc
    rw [hclients] at hc
    obtain ⟨hlast, hb⟩ := h.client c hc
    rw [howner, hsessions, hkept _ hb]
    exact ⟨hlast, hb⟩
  · intro m hm
    rw [hsessions] at hm
    exact ⟨hacceptors ▸ (h.fresh m hm).1, hidle m (h.fresh m hm).2⟩
  · intro m hm
    rw [hacceptors] at hm
    exact hidle m (h.ending m hm)

/-- The `close` of the session announces the end of a connection it has drained. -/
theorem Orderly.release (h : Orderly s) (hstep : s.release n c = some t) : Orderly t := by
  unfold TcpServer.release at hstep
  split at hstep
  next drained hcloser =>
    split at hstep
    next hmem =>
      cases hstep
      have hself := closers_setCloser_self s n (.releasing (drained.erase c))
      have hother : ∀ m, m ≠ n → (s.setCloser n (.releasing (drained.erase c))).closers m = s.closers m :=
        fun m hm => closers_setCloser_of_ne hm _
      have hdrained : s.Drained n c := (drained_iff hcloser).mpr hmem
      obtain ⟨hc, howner, hclient, hreading, hzero⟩ := (h.placed c).drained n hdrained
      refine h.past (n := n) ?_ ?_ hother rfl rfl rfl rfl rfl rfl rfl rfl ?_ ?_
      · rw [hcloser]
        exact id
      · show ¬ ((s.setCloser n (.releasing (drained.erase c))).closers n).Window
        rw [hself]
        exact id
      · intro k
        by_cases hk : k = c
        · subst hk
          have hends := (ends_send { s.setCloser n (.releasing (drained.erase k)) with
            abortedReads := insert k s.abortedReads } k).trans (congrArg (· + 1) hzero)
          refine ⟨fun _ => .inr (.inr (.inr (.inr hends))), ?_, (absurd · hclient), ?_, ?_, fun _ => hends, ?_⟩
          · intro m hm
            have hmn : m = n := ((h.placed k).inserting m hm).2.1.symm.trans howner
            have hm : s.loop m = .inserting k := hm
            have hserving : (s.loop n).Serving := hmn ▸ hm ▸ trivial
            exact absurd hdrained (h.not_drained hserving)
          · intro m hm
            by_cases hmn : m = n
            · subst hmn
              exact absurd ((drained_iff hself).mp hm) (Finset.notMem_erase k drained)
            · have hm := (drained_congr (hother m hmn)).mp hm
              exact absurd (((h.placed k).drained m hm).2.1.symm.trans howner) hmn
          · intro hr
            have hr : s.readers k = .announcing := hr
            rw [hr] at hreading
            rcases hreading with h' | h'
            · exact h'.elim
            · cases h'
          · exact fun hge => absurd hc (Nat.not_lt.mpr hge)
        · refine (h.placed k).congr .rfl rfl (fun _ => .rfl) .rfl ?_ rfl ?_ ?_
          · intro m
            by_cases hm : m = n
            · subst hm
              refine (drained_iff hself).trans (Iff.trans ?_ (drained_iff hcloser).symm)
              exact ⟨Finset.mem_of_mem_erase, Finset.mem_erase_of_ne_of_mem hk⟩
            · exact drained_congr (hother m hm)
          · exact ⟨fun hm => (Finset.mem_insert.mp hm).resolve_left hk, Finset.mem_insert_of_mem⟩
          · have hne : ServerEvent.connectionClose c ≠ .connectionClose k :=
              fun heq => hk (ServerEvent.connectionClose.inj heq).symm
            rw [ends, send, List.count_cons_of_ne hne]
            rfl
      · exact h.settled_of [.connectionClose c] rfl (by simp) (Nat.le_refl _) (fun _ _ => id)
          fun k hk => .inl ⟨hk, rfl⟩
    · cases hstep
  · cases hstep

/-- The `close` of the session has announced all it has drained. -/
theorem Orderly.finish (h : Orderly s) (hturn : Served s (.close n))
    (hcloser : s.closers n = .releasing ∅) : Orderly ((s.setCloser n .returned).send (.close n)) := by
  have hself := closers_setCloser_self s n .returned
  have hother : ∀ m, m ≠ n → (s.setCloser n .returned).closers m = s.closers m :=
    fun m hm => closers_setCloser_of_ne hm .returned
  have hbefore : ¬ (s.closers n).Before := by
    rw [hcloser]
    exact id
  have hnone : ∀ c, ¬ s.Drained n c := fun c hc => Finset.notMem_empty c ((drained_iff hcloser).mp hc)
  have hnot : ¬ (s.loop n).Serving := by
    intro hs
    apply hbefore
    rcases (h.stage.of_serving hs).2 with ⟨-, -, hc⟩ | ⟨-, -, hc⟩ | ⟨-, hc⟩ <;> rw [hc] <;> trivial
  refine h.past (n := n) hbefore ?_ hother rfl rfl rfl rfl rfl rfl rfl rfl ?_ ?_
  · show ¬ ((s.setCloser n .returned).closers n).Window
    rw [hself]
    exact id
  · intro c
    refine (h.placed c).congr .rfl rfl (fun _ => .rfl) .rfl ?_ rfl .rfl ?_
    · intro m
      by_cases hm : m = n
      · subst hm
        refine iff_of_false ?_ (hnone c)
        rintro ⟨drained, hc, -⟩
        cases hself.symm.trans hc
      · exact drained_congr (hother m hm)
    · simp [ends, send, setCloser]
  · refine h.settled_close rfl rfl rfl rfl (fun _ => id) hnot ?_ ?_
    · by_contra hge
      cases hcloser.symm.trans (h.fresh n (Nat.le_of_not_lt hge)).2
    · intro c hc howner
      refine (h.placed c).announced hc ?_ ?_ ?_ (hturn.2 hcloser c howner)
      · rw [howner]
        intro hinserting
        exact hnot (hinserting ▸ trivial)
      · intro hclient
        exact hbefore (howner ▸ (h.client c hclient).2)
      · rw [howner]
        exact hnone c

theorem Orderly.close (h : Orderly s) (hturn : Served s (.close n)) (hstep : s.close n = some t) :
    Orderly t := by
  unfold TcpServer.close at hstep
  split at hstep
  next hcloser =>
    obtain ⟨htask, hstop⟩ := h.stop hturn hcloser
    rw [htask] at hstep
    cases hstep
    exact hstop
  next hcloser =>
    cases hstep
    exact h.drain hcloser
  next drained hcloser =>
    split at hstep
    next hempty =>
      cases hstep
      subst hempty
      exact h.finish hturn hcloser
    · cases hstep
  · cases hstep

/-! ## Runs -/

/-- What a read publishes is neither a close event nor the end of a connection. -/
theorem read_eq (hreading : s.readers c = .reading) (result : Except String Bytes) :
    ∃ (phase : TaskPhase) (events : List ServerEvent),
      s.read c result = { s.setReader c phase with log := events ++ s.log } ∧ phase.Reading ∧
        ∀ e ∈ events, ∀ k, e ≠ .close k ∧ e ≠ .connectionClose k := by
  cases result with
  | error message =>
    exact ⟨.leaving, [.error (.connectionError message)], rfl, trivial, by simp⟩
  | ok data =>
    cases data with
    | nil => exact ⟨.leaving, [], rfl, trivial, nofun⟩
    | cons b bs =>
      refine ⟨.reading, [.data c (b :: bs)], ?_, trivial, by simp⟩
      show s.send (.data c (b :: bs)) = _
      rw [send, setReader, ← hreading, Function.update_eq_self]
      rfl

theorem Orderly.reader (h : Orderly s) (hturn : Served s (.reader c)) (hstep : s.reader c = some t) :
    Orderly t := by
  unfold TcpServer.reader at hstep
  split at hstep
  next hreader =>
    cases hstep
    exact h.remove hturn hreader
  next hreader =>
    cases hstep
    exact h.announce hreader
  · cases hstep

theorem Orderly.step {label : ServerLabel} (h : Orderly s) (hturn : Served s label)
    (hstep : s.step label = some t) : Orderly t := by
  cases label with
  | «open» => exact h.open hturn hstep
  | bound result =>
    simp only [TcpServer.step] at hstep
    split at hstep
    next hopener =>
      cases hstep
      exact h.bound hopener trivial
    next hopener =>
      cases hstep
      exact h.bound hopener trivial
    · cases hstep
  | accept session result =>
    simp only [TcpServer.step] at hstep
    split at hstep
    next haccepting =>
      cases hstep
      cases result with
      | ok result => exact h.acceptOk ((loop_of_notMem hturn).trans haccepting)
      | error message => exact h.acceptError ((loop_of_notMem hturn).trans haccepting) message
    · cases hstep
  | acceptor session => exact h.acceptor hturn hstep
  | stopLoop session => exact h.stopLoop hstep
  | read conn result =>
    simp only [TcpServer.step] at hstep
    split at hstep
    next hreading =>
      cases hstep
      obtain ⟨phase, events, heq, hphase, hevents⟩ := read_eq hreading result
      rw [heq]
      exact h.read events (hreading ▸ trivial) hphase hevents
    · cases hstep
  | reader conn => exact h.reader hturn hstep
  | stopRead conn => exact h.stopRead hstep
  | callClose =>
    simp only [TcpServer.step] at hstep
    cases hstep
    split
    next hopen => exact h.callClose hopen
    · exact h
  | close session => exact h.close hturn hstep
  | release session conn => exact h.release hstep

theorem orderly_new : Orderly {} where
  stage := .apart trivial rfl fun _ => ⟨id, id⟩
  placed _ := ⟨nofun, nofun, nofun, nofun, nofun, nofun, fun _ => ⟨rfl, rfl⟩⟩
  client := nofun
  fresh _ _ := ⟨rfl, rfl⟩
  ending := nofun
  settled := by
    intro newer older n hsplit
    cases newer <;> cases hsplit

theorem orderly_run {labels : List ServerLabel} (run : exec step {} labels = some s)
    (meets : Meets step Served {} labels) : Orderly s :=
  exec_invariant (fun _ _ _ h hturn hstep => h.step hturn hstep) run meets orderly_new

/-- A connection that was drained is announced by the next step of its `close`. -/
theorem exists_release (h : s.Drained n c) :
    ∃ t, s.step (.release n c) = some t ∧ t.ends c = s.ends c + 1 := by
  obtain ⟨drained, hcloser, hmem⟩ := h
  refine ⟨{ s.setCloser n (.releasing (drained.erase c)) with
    abortedReads := insert c s.abortedReads }.send (.connectionClose c), ?_, ends_send _ c⟩
  rw [step, TcpServer.release, hcloser]
  exact if_pos hmem

/-- A connection whose read task has taken its entry out is announced by the next step of the task. -/
theorem exists_announce (h : s.readers c = .announcing) :
    ∃ t, s.step (.reader c) = some t ∧ t.ends c = s.ends c + 1 := by
  refine ⟨(s.setReader c .ended).send (.connectionClose c), ?_, ends_send _ c⟩
  rw [step, TcpServer.reader, h]

/-- **The connections of a server**: in every run in which the tasks take entries in and out of the map in
order, no connection is announced twice; the end of every connection of a session is announced before the
close event of the session; a read task that is past its loop has no entry in the map, and the end of its
connection was announced, or is announced by the next step of the task that has taken its entry out. -/
theorem connections_announced {labels : List ServerLabel} (run : exec step {} labels = some s)
    (meets : Meets step Served {} labels) :
    (∀ c, s.ends c ≤ 1) ∧
    (∀ newer older n, s.log = newer ++ .close n :: older →
      ∀ c, c < s.generated → s.owner c = n → older.count (.connectionClose c) = 1) ∧
    (∀ c, s.readers c = .announcing → c ∉ s.clients ∧
      ∃ t, s.step (.reader c) = some t ∧ t.ends c = 1) ∧
    ∀ c, s.readers c = .ended → c ∉ s.clients ∧
      (s.ends c = 1 ∨ ∃ t, s.step (.release (s.owner c) c) = some t ∧ t.ends c = 1) := by
  have h := orderly_run run meets
  refine ⟨fun c => (h.placed c).ends_le, fun newer older n hlog => (h.settled newer older n hlog).2.2, ?_, ?_⟩
  · intro c hreader
    obtain ⟨-, hclient, hzero⟩ := (h.placed c).announcing hreader
    obtain ⟨t, hstep, hends⟩ := exists_announce hreader
    exact ⟨hclient, t, hstep, hends.trans (congrArg (· + 1) hzero)⟩
  · intro c hreader
    have hplaced := h.placed c
    have hreading : ¬ (s.readers c).Reading := by
      rw [hreader]
      exact id
    have hc : c < s.generated := by
      by_contra hge
      cases hreader.symm.trans (hplaced.future (Nat.le_of_not_lt hge)).1
    refine ⟨fun hclient => hreading (hplaced.held hclient).2.1, ?_⟩
    rcases hplaced.place hc with hp | hp | hp | hp | hp
    · exact absurd (hplaced.inserting _ hp).2.2.2.1 hreading
    · exact absurd (hplaced.held hp).2.1 hreading
    · obtain ⟨t, hstep, hends⟩ := exists_release hp
      exact .inr ⟨t, hstep, hends.trans (congrArg (· + 1) (hplaced.drained _ hp).2.2.2.2)⟩
    · cases hreader.symm.trans hp
    · exact .inl hp

/-- One connection ends by itself, and one is open when the session is closed; its read task, which `close`
aborts, gets the end of its stream before it ends. -/
theorem connections_announced_two : ∃ s : TcpServer,
    exec step {} ([.open, .bound (.ok ()), .open, .open, .open, .open, .open, .accept 0 (.ok ()),
      .acceptor 0, .accept 0 (.ok ()), .acceptor 0, .read 0 (.ok [7]), .read 1 (.ok []), .reader 1,
      .reader 1, .callClose, .close 0, .stopLoop 0, .close 0, .release 0 0, .read 0 (.ok []), .stopRead 0] ++
      [.close 0]) = some s ∧
    s.log = [.close 0, .connectionClose 0, .connectionClose 1, .data 0 [7]] ∧ s.ends 0 ≤ 1 := by
  have run : exec step {} ([.open, .bound (.ok ()), .open, .open, .open, .open, .open, .accept 0 (.ok ()),
    .acceptor 0, .accept 0 (.ok ()), .acceptor 0, .read 0 (.ok [7]), .read 1 (.ok []), .reader 1,
    .reader 1, .callClose, .close 0, .stopLoop 0, .close 0, .release 0 0, .read 0 (.ok []), .stopRead 0] ++
    [.close 0]) = some _ := rfl
  have meets : Meets step Served {} [.open, .bound (.ok ()), .open, .open, .open, .open, .open,
      .accept 0 (.ok ()), .acceptor 0, .accept 0 (.ok ()), .acceptor 0, .read 0 (.ok [7]), .read 1 (.ok []),
      .reader 1, .reader 1, .callClose, .close 0, .stopLoop 0, .close 0, .release 0 0, .read 0 (.ok []),
      .stopRead 0] := by
    have hnone : ∀ n : Nat, n ∉ (∅ : Finset Nat) := Finset.notMem_empty
    refine .cons rfl nofun (.cons rfl trivial (.cons rfl ?_ (.cons rfl nofun (.cons rfl nofun
      (.cons rfl nofun (.cons rfl nofun (.cons rfl (hnone 0) (.cons rfl ⟨hnone 0, nofun⟩
      (.cons rfl (hnone 0) (.cons rfl ⟨hnone 0, nofun⟩ (.cons rfl trivial (.cons rfl trivial
      (.cons rfl ?_ (.cons rfl nofun (.cons rfl trivial (.cons rfl ⟨?_, nofun⟩ (.cons rfl trivial
      (.cons rfl ⟨nofun, nofun⟩ (.cons rfl trivial (.cons rfl trivial (.cons rfl trivial
      trivial)))))))))))))))))))))
    · exact fun _ => ⟨rfl, fun _ => id⟩
    · exact fun _ => nofun
    · rintro _ task ⟨⟩ c
      nofun
  refine ⟨_, run, rfl, (connections_announced run (meets.append ?_)).1 0⟩
  -- The close event: connection 1 is announced, and there are no others in a read task.
  intro t ht
  have hcloser : t.closers 0 ≠ .stopping := by
    cases ht
    nofun
  have hreaders : t.readers 0 ≠ .announcing ∧ t.readers 1 ≠ .announcing := by
    cases ht
    exact ⟨nofun, nofun⟩
  have hgenerated : t.generated = 2 := by
    cases ht
    rfl
  refine ⟨⟨fun hc => absurd hc hcloser, fun _ c _ hreader => ?_⟩, fun _ _ => trivial⟩
  have hc := (((orderly_run ht meets).placed c).announcing hreader).1
  rw [hgenerated] at hc
  obtain rfl | rfl : c = 0 ∨ c = 1 := by omega
  · exact hreaders.1 hreader
  · exact hreaders.2 hreader

/-- A listener that fails ends a session whose connection is in the map, the next `open` clears the map, and
the end of the connection is announced by nobody. A read task that ends before the insertion of its entry
leaves it in the map. An accept loop that goes on after `close` has aborted it may insert a connection that
`close` does not drain. -/
theorem connection_forgotten :
    (∃ s : TcpServer,
      exec step {} [.open, .bound (.ok ()), .open, .open, .open, .open, .open, .accept 0 (.ok ()),
        .acceptor 0, .read 0 (.ok [7]), .accept 0 (.error "Too many open files"), .acceptor 0, .acceptor 0,
        .open, .bound (.ok ()), .open, .open, .open, .open, .open, .read 0 (.ok []), .reader 0] = some s ∧
      .data 0 [7] ∈ s.log ∧ .close (s.owner 0) ∈ s.log ∧ s.readers 0 = .ended ∧ s.ends 0 = 0) ∧
    (∃ s : TcpServer,
      exec step {} [.open, .bound (.ok ()), .open, .open, .open, .open, .open, .accept 0 (.ok ()),
        .read 0 (.ok []), .reader 0, .acceptor 0] = some s ∧
      s.readers 0 = .ended ∧ 0 ∈ s.clients) ∧
    ∃ s : TcpServer,
      exec step {} [.open, .bound (.ok ()), .open, .open, .open, .open, .open, .callClose, .close 0,
        .close 0, .accept 0 (.ok ()), .acceptor 0, .stopLoop 0, .read 0 (.ok [7]), .close 0] = some s ∧
      s.log = [.close 0, .data 0 [7]] ∧ s.acceptors 0 = .ended ∧ s.closers 0 = .returned ∧ 0 ∈ s.clients := by
  refine ⟨⟨_, rfl, ?_, ?_, rfl, rfl⟩, ⟨_, rfl, rfl, ?_⟩, _, rfl, rfl, rfl, rfl, ?_⟩
  · decide
  · decide
  · decide
  · decide

end TcpServer

end RsModbus.Physical
