import RsModbus.Library.Runs
import RsModbus.Physical.Client

/-!
# Laws of the sessions of a client

* `Stage`: how far the current session is, what `open`, the read loops and `close` are to each other
  then; `Tallied`: how many of its two events a session has sent, read off where its read loop and its
  `close` stand.
* `session_has_reader`: when a read loop swaps `is_open` only once its `open` has set it, one that is
  aborted only while it is false, and `open` does not store its connection id before a `close` has taken the
  last one, an open session has a read loop, and a session whose read loop has ended is announced once.
* `ended_before_open`: otherwise a session is open without a read loop, and nothing was announced.
-/

namespace RsModbus.Physical

open Library

variable {s t : Client} {n : Nat}

/-! ## Order -/

/-- The task of the read loop has not swapped `is_open`. -/
def ReadPhase.Running : ReadPhase → Prop
  | .checking => True
  | .reading => True
  | .leaving => True
  | _ => False

/-- A `close` that has still to take the connection id. -/
def ClosePhase.Window : ClosePhase → Prop
  | .stopping => True
  | .waiting _ => True
  | .naming => True
  | _ => False

/-- A read loop that ends swaps `is_open` once its `open` has set it, and one that is aborted while it is
false; `open` stores its connection id when every `close` that cleared `is_open` has taken the last one. -/
def Sequenced (s : Client) : ClientLabel → Prop
  | .reader id => s.readers id = .leaving →
      s.opener ≠ .keeping id ∧ s.opener ≠ .raising id ∧ (id ∈ s.aborted → s.isOpen = false)
  | .open => s.opener = .naming → ∀ id, ¬ (s.closers id).Window
  | _ => True

/-! ## The current session -/

/-- `open` has not generated an id, or it has set `is_open`. -/
def OpenPhase.Aside : OpenPhase → Prop
  | .idle => True
  | .connecting => True
  | .naming => True
  | .clearing => True
  | _ => False

namespace Client

/-- Where a read loop stands; one that is aborted counts as ended. -/
def loop (s : Client) (n : Nat) : ReadPhase := if n ∈ s.aborted then .ended else s.readers n

theorem loop_of_notMem (hn : n ∉ s.aborted) : s.loop n = s.readers n := if_neg hn

theorem loop_of_mem (hn : n ∈ s.aborted) : s.loop n = .ended := if_pos hn

theorem loop_of_ended (hn : s.readers n = .ended) : s.loop n = .ended := by
  by_cases haborted : n ∈ s.aborted
  · exact loop_of_mem haborted
  · exact (loop_of_notMem haborted).trans hn

/-- A read loop that does not count as ended. -/
theorem notMem_of_loop (hloop : s.loop n ≠ .ended) : n ∉ s.aborted := fun hn => hloop (loop_of_mem hn)

theorem notMem_of_running (hloop : (s.loop n).Running) : n ∉ s.aborted := by
  apply notMem_of_loop
  intro hended
  rw [hended] at hloop
  exact hloop

theorem loop_setReader_self (hn : n ∉ s.aborted) (phase : ReadPhase) : (s.setReader n phase).loop n = phase :=
  (loop_of_notMem (s := s.setReader n phase) hn).trans (Function.update_self ..)

theorem loop_setReader_of_ne {m : Nat} (hm : m ≠ n) (phase : ReadPhase) :
    (s.setReader n phase).loop m = s.loop m := by
  show (if m ∈ s.aborted then _ else Function.update s.readers n phase m) = _
  rw [Function.update_of_ne hm]
  rfl

/-- An aborted read loop counts as ended wherever it stands. -/
theorem loop_setReader_of_mem (hn : n ∈ s.aborted) (phase : ReadPhase) :
    (s.setReader n phase).loop = s.loop := by
  funext m
  by_cases hm : m = n
  · rw [hm, loop_of_mem hn]
    exact loop_of_mem (s := s.setReader n phase) hn
  · exact loop_setReader_of_ne hm phase

/-- No session but `n` has a read loop running or a close that has not taken the id. -/
def Alone (s : Client) (n : Nat) : Prop :=
  ∀ m, m ≠ n → ¬ (s.loop m).Running ∧ ¬ (s.closers m).Window

/-- How far the current session is: there is none; its id is generated; its read loop is spawned; it is
open; a `close` has found it open. -/
inductive Stage (s : Client) : Prop where
  | apart (hopener : s.opener.Aside) (hopen : s.isOpen = false)
      (hnone : ∀ m, ¬ (s.loop m).Running ∧ ¬ (s.closers m).Window)
  | spawning (n : Nat) (hopener : s.opener = .spawning n) (hopen : s.isOpen = false)
      (hid : s.connectionId = some n) (hreader : s.loop n = .unborn) (hcloser : s.closers n = .idle)
      (halone : s.Alone n) (hlt : n < s.generated)
  | spawned (n : Nat)
      (hopener : s.opener = .keeping n ∨ s.opener = .raising n ∧ s.readTask = some n)
      (hopen : s.isOpen = false) (hid : s.connectionId = some n) (hreader : (s.loop n).Running)
      (hcloser : s.closers n = .idle) (halone : s.Alone n)
  | running (hopener : s.opener = .idle ∨ s.opener = .clearing) (hopen : s.isOpen = true)
      (hid : s.connectionId = some s.session) (htask : s.readTask = some s.session)
      (hreader : (s.loop s.session).Running) (hcloser : s.closers s.session = .idle)
      (halone : s.Alone s.session)
  | closing (n : Nat) (hopener : s.opener.Aside) (hopen : s.isOpen = false)
      (hid : s.connectionId = some n)
      (hcloser : s.closers n = .stopping ∧ s.readTask = some n ∨ s.closers n = .waiting n ∨
        s.closers n = .naming) (halone : s.Alone n)

/-! ## The events of a session -/

/-- How many closes of its connection and close events a session has sent. -/
def counts (s : Client) (n : Nat) : Nat × Nat :=
  (s.log.count (.connectionClose n), s.log.count (.close n))

/-- What a session has sent, by where its read loop and its `close` stand. -/
def tally : ReadPhase → ClosePhase → Option (Nat × Nat)
  | .unborn, .idle => some (0, 0)
  | .checking, .idle | .reading, .idle | .leaving, .idle => some (0, 0)
  | .checking, .stopping | .reading, .stopping | .leaving, .stopping => some (0, 0)
  | .checking, .waiting _ | .reading, .waiting _ | .leaving, .waiting _ => some (0, 0)
  | .announcing, .idle => some (0, 0)
  | .closing, .idle => some (1, 0)
  | .ended, .idle => some (1, 1)
  | .ended, .stopping | .ended, .waiting _ | .ended, .naming | .ended, .announcing _ => some (0, 0)
  | .ended, .closing => some (1, 0)
  | .ended, .returned => some (1, 1)
  | _, _ => none

/-- A close of its connection is what a session owes at a point before the sending of it. -/
theorem tally_announce {k : Nat × Nat} :
    (∀ closer, tally .announcing closer = some k → tally .closing closer = some (k.1 + 1, k.2)) ∧
      ∀ reader id, tally reader (.announcing id) = some k → tally reader .closing = some (k.1 + 1, k.2) := by
  constructor
  · intro closer h
    cases closer <;> cases h
    rfl
  · intro reader id h
    cases reader <;> cases h
    rfl

/-- A close event is what a session owes at a point before the sending of it. -/
theorem tally_close {k : Nat × Nat} :
    (∀ closer, tally .closing closer = some k → tally .ended closer = some (k.1, k.2 + 1)) ∧
      ∀ reader, tally reader .closing = some k → tally reader .returned = some (k.1, k.2 + 1) := by
  constructor
  · intro closer h
    cases closer <;> cases h
    rfl
  · intro reader h
    cases reader <;> cases h
    rfl

/-- A read loop that ends while a `close` is before its take of the id leaves all to the `close`. -/
theorem tally_ended {closer : ClosePhase} (hwindow : closer.Window) {k : Nat × Nat}
    (h : tally .leaving closer = some k) : tally .ended closer = some k := by
  cases closer <;> first | exact hwindow.elim | cases h
  · rfl
  · rfl

/-- Every session has sent what it should have. -/
def Tallied (s : Client) : Prop := ∀ n, tally (s.loop n) (s.closers n) = some (s.counts n)

/-- What a step of session `n` alone keeps. -/
theorem Tallied.set (h : Tallied s) (hreaders : ∀ m, m ≠ n → t.loop m = s.loop m)
    (hclosers : ∀ m, m ≠ n → t.closers m = s.closers m) (hcounts : ∀ m, m ≠ n → t.counts m = s.counts m)
    (hn : tally (t.loop n) (t.closers n) = some (t.counts n)) : Tallied t := by
  intro m
  by_cases hm : m = n
  · rw [hm]
    exact hn
  · rw [hreaders m hm, hclosers m hm, hcounts m hm]
    exact h m

theorem counts_send_connectionClose (s : Client) (m : Nat) : (s.send (.connectionClose n)).counts m =
    ((s.counts m).1 + if n = m then 1 else 0, (s.counts m).2) := by
  simp [counts, send, List.count_cons]

theorem counts_send_close (s : Client) (m : Nat) : (s.send (.close n)).counts m =
    ((s.counts m).1, (s.counts m).2 + if n = m then 1 else 0) := by
  simp [counts, send, List.count_cons]

theorem tally_le_one {reader : ReadPhase} {closer : ClosePhase} {k : Nat × Nat}
    (h : tally reader closer = some k) : k.1 ≤ 1 ∧ k.2 ≤ 1 := by
  cases reader <;> cases closer <;> cases h <;> exact ⟨by decide, by decide⟩

/-! ## Steps -/

/-- What holds of a client between two steps. -/
structure Linked (s : Client) : Prop where
  stage : Stage s
  tallied : Tallied s
  future : ∀ n, s.generated ≤ n → s.loop n = .unborn ∧ s.closers n = .idle
  named : ∀ n k, s.closers n = .announcing k → k = n
  aborted : ∀ n ∈ s.aborted, (s.readers n).Running ∨ s.readers n = .ended

/-- The session that is current, if any, is the one with a read loop running. -/
theorem Stage.of_running (h : Stage s) (hrunning : (s.loop n).Running) :
    (s.opener = .keeping n ∨ s.opener = .raising n) ∨ s.isOpen = true ∧ n = s.session ∨
      s.isOpen = false ∧ (s.closers n).Window := by
  cases h with
  | apart hopener hopen hnone => exact absurd hrunning (hnone n).1
  | spawning k hopener hopen hid hreader hcloser halone hlt =>
    by_cases hn : n = k
    · rw [hn, hreader] at hrunning
      exact hrunning.elim
    · exact absurd hrunning (halone n hn).1
  | spawned k hopener hopen hid hreader hcloser halone =>
    by_cases hn : n = k
    · subst hn
      exact .inl (hopener.imp_right And.left)
    · exact absurd hrunning (halone n hn).1
  | running hopener hopen hid htask hreader hcloser halone =>
    by_cases hn : n = s.session
    · exact .inr (.inl ⟨hopen, hn⟩)
    · exact absurd hrunning (halone n hn).1
  | closing k hopener hopen hid hcloser halone =>
    by_cases hn : n = k
    · subst hn
      refine .inr (.inr ⟨hopen, ?_⟩)
      rcases hcloser with ⟨hc, -⟩ | hc | hc <;> rw [hc] <;> trivial
    · exact absurd hrunning (halone n hn).1

/-- A step outside the current session. -/
theorem Stage.aside (h : Stage s) (hopener : t.opener = s.opener) (hopen : t.isOpen = s.isOpen)
    (hid : t.connectionId = s.connectionId) (htask : t.readTask = s.readTask)
    (hsession : t.session = s.session) (hgenerated : t.generated = s.generated)
    (hreaders : ∀ m, t.loop m = s.loop m ∨
      ¬ (s.loop m).Running ∧ ¬ (t.loop m).Running ∧ s.loop m ≠ .unborn)
    (hclosers : ∀ m, t.closers m = s.closers m ∨
      ¬ (s.closers m).Window ∧ ¬ (t.closers m).Window ∧ s.closers m ≠ .idle) : Stage t := by
  have hnot : ∀ m, ¬ (s.loop m).Running ∧ ¬ (s.closers m).Window →
      ¬ (t.loop m).Running ∧ ¬ (t.closers m).Window := by
    rintro m ⟨hr, hc⟩
    constructor
    · rcases hreaders m with heq | ⟨-, hr', -⟩
      · rwa [heq]
      · exact hr'
    · rcases hclosers m with heq | ⟨-, hc', -⟩
      · rwa [heq]
      · exact hc'
  have halone' : ∀ n, s.Alone n → t.Alone n := fun n halone m hm => hnot m (halone m hm)
  have hrun : ∀ m, (s.loop m).Running → t.loop m = s.loop m :=
    fun m hr => (hreaders m).resolve_right fun hr' => hr'.1 hr
  have hidle : ∀ m, s.closers m = .idle → t.closers m = s.closers m :=
    fun m hc => (hclosers m).resolve_right fun hc' => hc'.2.2 hc
  cases h with
  | apart hopener' hopen' hnone =>
    exact .apart (hopener ▸ hopener') (hopen.trans hopen') fun m => hnot m (hnone m)
  | spawning n hopener' hopen' hid' hreader hcloser halone hlt =>
    refine .spawning n (hopener.trans hopener') (hopen.trans hopen') (hid.trans hid') ?_
      ((hidle n hcloser).trans hcloser) (halone' n halone) (hgenerated ▸ hlt)
    exact ((hreaders n).resolve_right fun hr => hr.2.2 hreader).trans hreader
  | spawned n hopener' hopen' hid' hreader hcloser halone =>
    refine .spawned n ?_ (hopen.trans hopen') (hid.trans hid') (hrun n hreader ▸ hreader)
      ((hidle n hcloser).trans hcloser) (halone' n halone)
    rw [hopener, htask]
    exact hopener'
  | running hopener' hopen' hid' htask' hreader hcloser halone =>
    refine .running (hopener ▸ hopener') (hopen.trans hopen') ?_ ?_ ?_ ?_ ?_
    · rw [hid, hsession]
      exact hid'
    · rw [htask, hsession]
      exact htask'
    · rw [hsession, hrun _ hreader]
      exact hreader
    · rw [hsession]
      exact (hidle _ hcloser).trans hcloser
    · rw [hsession]
      exact halone' _ halone
  | closing n hopener' hopen' hid' hcloser halone =>
    have hwindow : (s.closers n).Window := by
      rcases hcloser with ⟨hc, -⟩ | hc | hc <;> rw [hc] <;> trivial
    have hsame : t.closers n = s.closers n := (hclosers n).resolve_right fun hc => hc.1 hwindow
    refine .closing n (hopener ▸ hopener') (hopen.trans hopen') (hid.trans hid') ?_ (halone' n halone)
    rw [hsame, htask]
    exact hcloser

/-- A session's read loop goes on, and is not done. -/
theorem Stage.read (h : Stage s) (hopener : t.opener = s.opener) (hopen : t.isOpen = s.isOpen)
    (hid : t.connectionId = s.connectionId) (htask : t.readTask = s.readTask)
    (hsession : t.session = s.session) {phase : ReadPhase}
    (hself : t.loop n = phase) (hother : ∀ m, m ≠ n → t.loop m = s.loop m)
    (hclosers : t.closers = s.closers) (hbefore : (s.loop n).Running) (hafter : phase.Running) :
    Stage t := by
  have hrunning : ∀ m, (t.loop m).Running ↔ (s.loop m).Running := by
    intro m
    by_cases hm : m = n
    · rw [hm, hself]
      exact iff_of_true hafter hbefore
    · rw [hother m hm]
  have halone' : ∀ k, s.Alone k → t.Alone k := by
    intro k halone m hm
    rw [hrunning, hclosers]
    exact halone m hm
  cases h with
  | apart hopener' hopen' hnone => exact absurd hbefore (hnone n).1
  | spawning k hopener' hopen' hid' hreader hcloser halone hlt =>
    have hk : n ≠ k := by
      rintro rfl
      rw [hreader] at hbefore
      exact hbefore
    exact absurd hbefore (halone n hk).1
  | spawned k hopener' hopen' hid' hreader hcloser halone =>
    refine .spawned k ?_ (hopen.trans hopen') (hid.trans hid') ((hrunning k).mpr hreader) ?_
      (halone' k halone)
    · rw [hopener, htask]
      exact hopener'
    · rw [hclosers]
      exact hcloser
  | running hopener' hopen' hid' htask' hreader hcloser halone =>
    refine .running (hopener ▸ hopener') (hopen.trans hopen') ?_ ?_ ?_ ?_ ?_ <;> rw [hsession]
    · exact hid.trans hid'
    · exact htask.trans htask'
    · exact (hrunning _).mpr hreader
    · rw [hclosers]
      exact hcloser
    · exact halone' _ halone
  | closing k hopener' hopen' hid' hcloser halone =>
    refine .closing k (hopener ▸ hopener') (hopen.trans hopen') (hid.trans hid') ?_ (halone' k halone)
    rw [hclosers, htask]
    exact hcloser

/-- A step that moves neither a read loop nor a `close`. -/
theorem Linked.opener (h : Linked s) (hstage : Stage t) (hreaders : t.loop = s.loop)
    (hclosers : t.closers = s.closers) (hcounts : t.counts = s.counts)
    (hgenerated : s.generated ≤ t.generated)
    (haborted : ∀ n ∈ t.aborted, (t.readers n).Running ∨ t.readers n = .ended) : Linked t := by
  refine ⟨hstage, ?_, ?_, ?_, haborted⟩
  · intro n
    rw [hreaders, hclosers, hcounts]
    exact h.tallied n
  · intro n hn
    rw [hreaders, hclosers]
    exact h.future n (Nat.le_trans hgenerated hn)
  · rw [hclosers]
    exact h.named

/-- A session with a read loop or a `close` has its id. -/
theorem Linked.born (h : Linked s) (hn : s.loop n ≠ .unborn ∨ s.closers n ≠ .idle) : n < s.generated := by
  by_contra hge
  obtain ⟨hreader, hcloser⟩ := h.future n (Nat.le_of_not_lt hge)
  exact hn.elim (absurd hreader) (absurd hcloser)

/-- A step of session `n` alone. -/
theorem Linked.set (h : Linked s) (hstage : Stage t) (hgenerated : t.generated = s.generated)
    (hborn : n < s.generated) (hreaders : ∀ m, m ≠ n → t.loop m = s.loop m)
    (hclosers : ∀ m, m ≠ n → t.closers m = s.closers m) (hcounts : ∀ m, m ≠ n → t.counts m = s.counts m)
    (hn : tally (t.loop n) (t.closers n) = some (t.counts n))
    (hnamed : ∀ k, t.closers n = .announcing k → k = n)
    (haborted : ∀ m ∈ t.aborted, (t.readers m).Running ∨ t.readers m = .ended) : Linked t := by
  refine ⟨hstage, h.tallied.set hreaders hclosers hcounts hn, ?_, ?_, haborted⟩
  · intro m hm
    rw [hgenerated] at hm
    have hne : m ≠ n := Nat.ne_of_gt (Nat.lt_of_lt_of_le hborn hm)
    rw [hreaders m hne, hclosers m hne]
    exact h.future m hm
  · intro m k hm
    by_cases hne : m = n
    · subst hne
      exact hnamed k hm
    · exact h.named m k ((hclosers m hne).symm.trans hm)

/-- A read loop that is not aborted moves. -/
theorem Linked.aborted_setReader (h : Linked s) (hn : n ∉ s.aborted) (phase : ReadPhase) :
    ∀ m ∈ s.aborted, ((s.setReader n phase).readers m).Running ∨ (s.setReader n phase).readers m = .ended := by
  intro m hm
  have hne : m ≠ n := by
    rintro rfl
    exact hn hm
  rw [show (s.setReader n phase).readers m = s.readers m from Function.update_of_ne hne _ _]
  exact h.aborted m hm

/-- `open` has generated its id. -/
theorem Stage.of_spawning (h : Stage s) (hopener : s.opener = .spawning n) :
    s.isOpen = false ∧ s.connectionId = some n ∧ s.loop n = .unborn ∧ s.closers n = .idle ∧
      s.Alone n ∧ n < s.generated := by
  cases h with
  | spawning k hopener' hopen hid hreader hcloser halone hlt =>
    cases hopener.symm.trans hopener'
    exact ⟨hopen, hid, hreader, hcloser, halone, hlt⟩
  | apart hopener' =>
    rw [hopener] at hopener'
    exact hopener'.elim
  | closing k hopener' =>
    rw [hopener] at hopener'
    exact hopener'.elim
  | running hopener' => rcases hopener' with h' | h' <;> cases hopener.symm.trans h'
  | spawned k hopener' => rcases hopener' with h' | ⟨h', -⟩ <;> cases hopener.symm.trans h'

/-- `open` has spawned its read loop. -/
theorem Stage.of_spawned (h : Stage s) (hopener : s.opener = .keeping n ∨ s.opener = .raising n) :
    (s.opener = .raising n → s.readTask = some n) ∧ s.isOpen = false ∧ s.connectionId = some n ∧
      (s.loop n).Running ∧ s.closers n = .idle ∧ s.Alone n := by
  have hnot : ¬ s.opener.Aside := by
    rcases hopener with h | h <;> rw [h] <;> exact id
  cases h with
  | spawned k hopener' hopen hid hreader hcloser halone =>
    have hk : n = k := by
      rcases hopener with h | h <;> rcases hopener' with h' | ⟨h', -⟩ <;> cases h.symm.trans h' <;> rfl
    subst hk
    refine ⟨?_, hopen, hid, hreader, hcloser, halone⟩
    intro hraising
    rcases hopener' with h' | ⟨-, htask⟩
    · cases hraising.symm.trans h'
    · exact htask
  | apart hopener' => exact absurd hopener' hnot
  | closing k hopener' => exact absurd hopener' hnot
  | running hopener' => rcases hopener' with h' | h' <;> exact absurd (h' ▸ trivial) hnot
  | spawning k hopener' => rcases hopener with h | h <;> cases h.symm.trans hopener'

/-- `open` has not generated an id, or is past its store to `is_open`. -/
theorem Stage.next (h : Stage s) (haside : s.opener.Aside) {opener : OpenPhase} (hopener : opener.Aside)
    (hrunning : s.isOpen = true → opener = .idle ∨ opener = .clearing) :
    Stage { s with opener := opener } := by
  cases h with
  | apart _ hopen hnone => exact .apart hopener hopen hnone
  | closing n _ hopen hid hcloser halone => exact .closing n hopener hopen hid hcloser halone
  | running _ hopen hid htask hreader hcloser halone =>
    exact .running (hrunning hopen) hopen hid htask hreader hcloser halone
  | spawning n hopener' =>
    rw [hopener'] at haside
    exact haside.elim
  | spawned n hopener' => rcases hopener' with h' | ⟨h', -⟩ <;> rw [h'] at haside <;> exact haside.elim

/-- A session that has just got its read loop. -/
theorem Linked.spawn (h : Linked s) (hopener : s.opener = .spawning n) :
    Linked { s.setReader n s.kind.again with opener := .keeping n } := by
  obtain ⟨hopen, hid, hreader, hcloser, halone, hlt⟩ := h.stage.of_spawning hopener
  have hn : n ∉ s.aborted := notMem_of_loop (by rw [hreader]; nofun)
  have hother : ∀ m, m ≠ n → (s.setReader n s.kind.again).loop m = s.loop m :=
    fun m hm => loop_setReader_of_ne hm _
  have hself := loop_setReader_self hn s.kind.again
  refine h.set (.spawned n (.inl rfl) hopen hid ?_ hcloser ?_) rfl hlt hother (fun _ _ => rfl)
    (fun _ _ => rfl) ?_ (h.named n) (h.aborted_setReader hn _)
  · show ((s.setReader n s.kind.again).loop n).Running
    rw [hself]
    cases s.kind <;> trivial
  · intro m hm
    show ¬ ((s.setReader n s.kind.again).loop m).Running ∧ _
    rw [hother m hm]
    exact halone m hm
  · have hn := h.tallied n
    rw [hreader, hcloser] at hn
    show tally ((s.setReader n s.kind.again).loop n) (s.closers n) = some (s.counts n)
    rw [hself, hcloser, ← hn]
    cases s.kind <;> rfl

theorem Linked.open (h : Linked s) (hturn : Sequenced s .open) (hstep : s.open = some t) : Linked t := by
  unfold Client.open at hstep
  split at hstep
  next hopener =>
    split at hstep
    · cases hstep
      exact h
    next hclosed =>
      cases hstep
      exact h.opener (h.stage.next (hopener ▸ trivial) trivial (absurd · hclosed)) rfl rfl rfl (Nat.le_refl _)
        h.aborted
  · cases hstep
  next hopener =>
    cases hstep
    refine h.opener ?_ rfl rfl rfl (Nat.le_succ _) h.aborted
    obtain ⟨hreader, hcloser⟩ := h.future s.generated (Nat.le_refl _)
    cases h.stage with
    | apart _ hopen hnone =>
      exact .spawning s.generated rfl hopen rfl hreader hcloser (fun m _ => hnone m) (Nat.lt_succ_self _)
    | closing n _ _ _ hcloser' =>
      refine absurd ?_ (hturn hopener n)
      rcases hcloser' with ⟨hc, -⟩ | hc | hc <;> rw [hc] <;> trivial
    | running hopener' => rcases hopener' with h' | h' <;> cases hopener.symm.trans h'
    | spawning n hopener' => cases hopener.symm.trans hopener'
    | spawned n hopener' => rcases hopener' with h' | ⟨h', -⟩ <;> cases hopener.symm.trans h'
  next id hopener =>
    cases hstep
    exact h.spawn hopener
  next id hopener =>
    cases hstep
    obtain ⟨-, hopen, hid, hreader, hcloser, halone⟩ := h.stage.of_spawned (.inl hopener)
    exact h.opener (.spawned id (.inr ⟨rfl, rfl⟩) hopen hid hreader hcloser halone) rfl rfl rfl
      (Nat.le_refl _) h.aborted
  next id hopener =>
    cases hstep
    obtain ⟨htask, hopen, hid, hreader, hcloser, halone⟩ := h.stage.of_spawned (.inr hopener)
    exact h.opener (.running (.inr rfl) rfl hid (htask hopener) hreader hcloser halone) rfl rfl rfl
      (Nat.le_refl _) h.aborted
  next hopener =>
    cases hstep
    exact h.opener (h.stage.next (hopener ▸ trivial) trivial fun _ => .inl rfl) rfl rfl rfl (Nat.le_refl _)
      h.aborted

/-- The session is open. -/
theorem Stage.of_isOpen (h : Stage s) (hopen : s.isOpen = true) :
    (s.opener = .idle ∨ s.opener = .clearing) ∧ s.connectionId = some s.session ∧
      s.readTask = some s.session ∧ (s.loop s.session).Running ∧ s.closers s.session = .idle ∧
      s.Alone s.session := by
  cases h with
  | running hopener _ hid htask hreader hcloser halone =>
    exact ⟨hopener, hid, htask, hreader, hcloser, halone⟩
  | apart _ hclosed => cases hopen.symm.trans hclosed
  | spawning _ _ hclosed => cases hopen.symm.trans hclosed
  | spawned _ _ hclosed => cases hopen.symm.trans hclosed
  | closing _ _ hclosed => cases hopen.symm.trans hclosed

/-- A `close` has found the session open, and has not taken its id. -/
theorem Stage.of_window (h : Stage s) (hwindow : (s.closers n).Window) :
    s.opener.Aside ∧ s.isOpen = false ∧ s.connectionId = some n ∧
      (s.closers n = .stopping ∧ s.readTask = some n ∨ s.closers n = .waiting n ∨ s.closers n = .naming) ∧
      s.Alone n := by
  have hnot : ∀ {k}, s.closers k = .idle → s.Alone k → False := by
    intro k hcloser halone
    by_cases hk : n = k
    · rw [hk, hcloser] at hwindow
      exact hwindow
    · exact (halone n hk).2 hwindow
  cases h with
  | closing k hopener hopen hid hcloser halone =>
    have hk : n = k := by
      by_contra hk
      exact (halone n hk).2 hwindow
    subst hk
    exact ⟨hopener, hopen, hid, hcloser, halone⟩
  | apart _ _ hnone => exact absurd hwindow (hnone n).2
  | spawning k _ _ _ _ hcloser halone => exact (hnot hcloser halone).elim
  | spawned k _ _ _ _ hcloser halone => exact (hnot hcloser halone).elim
  | running _ _ _ _ _ hcloser halone => exact (hnot hcloser halone).elim

theorem Linked.connected (h : Linked s) {opener : OpenPhase} (hopener : s.opener = .connecting)
    (haside : opener.Aside) : Linked { s with opener := opener } := by
  refine h.opener (h.stage.next (hopener ▸ trivial) haside ?_) rfl rfl rfl (Nat.le_refl _) h.aborted
  intro hopen
  rcases (h.stage.of_isOpen hopen).1 with h' | h' <;> cases hopener.symm.trans h'

/-! ### The read loop -/

/-- A running read loop has sent nothing of the end of its session, wherever it stands. -/
theorem tally_of_running {phase phase' : ReadPhase} (h : phase.Running) (h' : phase'.Running)
    (closer : ClosePhase) : tally phase closer = tally phase' closer := by
  cases phase <;> first | exact h.elim | skip
  all_goals cases phase' <;> first | exact h'.elim | skip
  all_goals cases closer <;> rfl

/-- A read loop that is aborted goes on before its swap of `is_open`, or ends. -/
theorem Linked.past (h : Linked s) (haborted : n ∈ s.aborted) (phase : ReadPhase)
    (hphase : phase.Running ∨ phase = .ended) (events : List ClientEvent)
    (hcounts : ∀ m, counts { s.setReader n phase with log := events ++ s.log } m = s.counts m) :
    Linked { s.setReader n phase with log := events ++ s.log } := by
  have hloop : (s.setReader n phase).loop = s.loop := loop_setReader_of_mem haborted phase
  refine h.opener ?_ hloop rfl (funext hcounts) (Nat.le_refl _) ?_
  · exact h.stage.aside rfl rfl rfl rfl rfl rfl (fun m => .inl (congrFun hloop m)) fun _ => .inl rfl
  · intro m hm
    show ((s.setReader n phase).readers m).Running ∨ (s.setReader n phase).readers m = .ended
    by_cases hne : m = n
    · rw [hne, show (s.setReader n phase).readers n = phase from Function.update_self ..]
      exact hphase
    · rw [show (s.setReader n phase).readers m = s.readers m from Function.update_of_ne hne _ _]
      exact h.aborted m hm

/-- A read loop goes on, and publishes what is not the end of a session. -/
theorem Linked.read (h : Linked s) (events : List ClientEvent) {phase : ReadPhase}
    (hbefore : (s.readers n).Running) (hafter : phase.Running)
    (hevents : ∀ e ∈ events, ∀ k, e ≠ .connectionClose k ∧ e ≠ .close k) :
    Linked { s.setReader n phase with log := events ++ s.log } := by
  have hcounts : ∀ m, counts { s.setReader n phase with log := events ++ s.log } m = s.counts m := by
    intro m
    have hnone : events.count (.connectionClose m) = 0 :=
      List.count_eq_zero.mpr fun hmem => (hevents _ hmem m).1 rfl
    have hnone' : events.count (.close m) = 0 :=
      List.count_eq_zero.mpr fun hmem => (hevents _ hmem m).2 rfl
    simp only [counts, List.count_append, hnone, hnone', Nat.zero_add]
  by_cases haborted : n ∈ s.aborted
  · exact h.past haborted phase (.inl hafter) events hcounts
  have hself := loop_setReader_self haborted phase
  have hother : ∀ m, m ≠ n → (s.setReader n phase).loop m = s.loop m :=
    fun m hm => loop_setReader_of_ne hm phase
  rw [← loop_of_notMem haborted] at hbefore
  refine h.set (h.stage.read rfl rfl rfl rfl rfl hself hother rfl hbefore hafter) rfl (h.born (.inl ?_))
    hother (fun _ _ => rfl) (fun m _ => hcounts m) ?_ (h.named n) (h.aborted_setReader haborted phase)
  · intro hunborn
    rw [hunborn] at hbefore
    exact hbefore
  · rw [hcounts]
    show tally ((s.setReader n phase).loop n) (s.closers n) = _
    rw [hself, tally_of_running hafter hbefore]
    exact h.tallied n

/-- What a read makes of the loop. -/
theorem read_cases (s : Client) (n : Nat) (result : ReadResult) : ∃ phase events,
    s.read n result = { s.setReader n phase with log := events ++ s.log } ∧ phase.Running ∧
      ∀ e ∈ events, ∀ k, e ≠ ClientEvent.connectionClose k ∧ e ≠ .close k := by
  have hagain : ∀ kind : ClientKind, kind.again.Running := by
    intro kind
    cases kind <;> trivial
  cases result with
  | data data =>
    exact ⟨s.kind.again, [.data n data], by unfold Client.read; rfl, hagain _, by simp⟩
  | empty =>
    cases hkind : s.kind with
    | tcp => exact ⟨.leaving, [], by simp only [Client.read, hkind]; rfl, trivial, nofun⟩
    | serial => exact ⟨.checking, [], by simp only [Client.read, hkind]; rfl, trivial, nofun⟩
  | timedOut message =>
    cases hkind : s.kind with
    | tcp =>
      exact ⟨.leaving, [.error (.connectionError message)], by simp only [Client.read, hkind]; rfl,
        trivial, by simp⟩
    | serial => exact ⟨.checking, [], by simp only [Client.read, hkind]; rfl, trivial, nofun⟩
  | failed message =>
    exact ⟨.leaving, [.error (.connectionError message)], by unfold Client.read; rfl, trivial, by simp⟩

/-- The task of a read loop that has left the loop swaps `is_open`. -/
theorem Linked.leave (h : Linked s) (hturn : Sequenced s (.reader n)) (hreader : s.readers n = .leaving) :
    Linked { s.setReader n (if s.isOpen then .announcing else .ended) with isOpen := false } := by
  obtain ⟨hkeeping, hraising, hclosed⟩ := hturn hreader
  by_cases haborted : n ∈ s.aborted
  · have hpast := h.past haborted .ended (.inr rfl) [] fun _ => rfl
    rw [hclosed haborted, if_neg Bool.false_ne_true, ← hclosed haborted]
    exact hpast
  rw [← loop_of_notMem haborted] at hreader
  have hrunning : (s.loop n).Running := hreader ▸ trivial
  have hother : ∀ phase m, m ≠ n → (s.setReader n phase).loop m = s.loop m :=
    fun phase m hm => loop_setReader_of_ne hm phase
  have hself : ∀ phase, (s.setReader n phase).loop n = phase := loop_setReader_self haborted
  have hborn := h.born (.inl (by rw [hreader]; nofun))
  have hn := h.tallied n
  rw [hreader] at hn
  rcases h.stage.of_running hrunning with hopener | ⟨hopen, rfl⟩ | ⟨hopen, hwindow⟩
  · rcases hopener with hopener | hopener
    · exact absurd hopener hkeeping
    · exact absurd hopener hraising
  · obtain ⟨hopener, hid, htask, -, hcloser, halone⟩ := h.stage.of_isOpen hopen
    rw [if_pos hopen]
    refine h.set (.apart ?_ rfl ?_) rfl hborn (hother .announcing) (fun _ _ => rfl) (fun _ _ => rfl) ?_
      (h.named _) (h.aborted_setReader haborted .announcing)
    · rcases hopener with h' | h' <;> exact h' ▸ trivial
    · intro m
      show ¬ ((s.setReader s.session .announcing).loop m).Running ∧ ¬ (s.closers m).Window
      by_cases hm : m = s.session
      · rw [hm, hself, hcloser]
        exact ⟨id, id⟩
      · rw [hother _ m hm]
        exact halone m hm
    · rw [hcloser] at hn
      show tally ((s.setReader s.session .announcing).loop s.session) (s.closers s.session) = _
      rw [hself, hcloser]
      exact hn
  · obtain ⟨hopener, -, hid, hcloser, halone⟩ := h.stage.of_window hwindow
    rw [hopen, if_neg Bool.false_ne_true]
    refine h.set (.closing n hopener rfl hid hcloser ?_) rfl hborn (hother .ended) (fun _ _ => rfl)
      (fun _ _ => rfl) ?_ (h.named n) (h.aborted_setReader haborted .ended)
    · intro m hm
      show ¬ ((s.setReader n .ended).loop m).Running ∧ ¬ (s.closers m).Window
      rw [hother _ m hm]
      exact halone m hm
    · show tally ((s.setReader n .ended).loop n) (s.closers n) = _
      rw [hself]
      exact tally_ended hwindow hn

/-- The task of a read loop sends an event of the end of its session. -/
theorem Linked.send (h : Linked s) {phase : ReadPhase} {event : ClientEvent}
    (hbefore : ¬ (s.loop n).Running ∧ s.loop n ≠ .unborn ∧ s.loop n ≠ .ended) (hafter : ¬ phase.Running)
    (hcounts : ∀ m, m ≠ n → (s.send event).counts m = s.counts m)
    (hn : tally phase (s.closers n) = some ((s.send event).counts n)) :
    Linked ((s.setReader n phase).send event) := by
  have haborted : n ∉ s.aborted := notMem_of_loop hbefore.2.2
  have hself : (s.setReader n phase).loop n = phase := loop_setReader_self haborted phase
  have hother : ∀ m, m ≠ n → (s.setReader n phase).loop m = s.loop m :=
    fun m hm => loop_setReader_of_ne hm phase
  refine h.set (h.stage.aside rfl rfl rfl rfl rfl rfl ?_ fun _ => .inl rfl) rfl
    (h.born (.inl hbefore.2.1)) hother (fun _ _ => rfl) hcounts ?_ (h.named n)
    (h.aborted_setReader haborted phase)
  · intro m
    by_cases hm : m = n
    · refine .inr ?_
      subst hm
      refine ⟨hbefore.1, ?_, hbefore.2.1⟩
      rwa [show ((s.setReader m phase).send event).loop m = phase from hself]
    · exact .inl (hother m hm)
  · show tally ((s.setReader n phase).loop n) (s.closers n) = _
    rw [hself]
    exact hn

/-- A read loop that is about to send the end of its session is not aborted. -/
theorem Linked.loop_eq (h : Linked s) {phase : ReadPhase} (hreader : s.readers n = phase)
    (hphase : ¬ phase.Running ∧ phase ≠ .ended) : s.loop n = phase := by
  refine (loop_of_notMem ?_).trans hreader
  intro haborted
  have hn := h.aborted n haborted
  rw [hreader] at hn
  exact hn.elim hphase.1 hphase.2

theorem Linked.reader (h : Linked s) (hturn : Sequenced s (.reader n)) (hstep : s.reader n = some t) :
    Linked t := by
  have hn := h.tallied n
  unfold Client.reader at hstep
  split at hstep
  next hreader =>
    cases hstep
    refine h.read [] (hreader ▸ trivial) ?_ nofun
    split <;> trivial
  next hreader =>
    cases hstep
    exact h.leave hturn hreader
  next hreader =>
    cases hstep
    have hloop : s.loop n = .announcing := h.loop_eq hreader ⟨id, nofun⟩
    rw [hloop] at hn
    refine h.send (by rw [hloop]; exact ⟨id, nofun, nofun⟩) id ?_ ?_
    · intro m hm
      rw [counts_send_connectionClose, if_neg hm.symm]
      rfl
    · rw [counts_send_connectionClose, if_pos rfl]
      exact tally_announce.1 _ hn
  next hreader =>
    cases hstep
    have hloop : s.loop n = .closing := h.loop_eq hreader ⟨id, nofun⟩
    rw [hloop] at hn
    refine h.send (by rw [hloop]; exact ⟨id, nofun, nofun⟩) id ?_ ?_
    · intro m hm
      rw [counts_send_close, if_neg hm.symm]
      rfl
    · rw [counts_send_close, if_pos rfl]
      exact tally_close.1 _ hn
  · cases hstep

/-- An aborted read task ends. -/
theorem Linked.stopped (h : Linked s) (hstep : s.stop n = some t) : Linked t := by
  unfold Client.stop at hstep
  split at hstep
  next haborted =>
    split at hstep <;> cases hstep <;> exact h.past haborted .ended (.inr rfl) [] fun _ => rfl
  · cases hstep

/-! ### `close` -/

theorem Linked.callClose (h : Linked s) (hopen : s.isOpen = true) :
    Linked { s.setCloser s.session .stopping with isOpen := false } := by
  obtain ⟨hopener, hid, htask, hrunning, hcloser, halone⟩ := h.stage.of_isOpen hopen
  have hself : (s.setCloser s.session .stopping).closers s.session = .stopping := Function.update_self ..
  have hother : ∀ m, m ≠ s.session → (s.setCloser s.session .stopping).closers m = s.closers m :=
    fun m hm => Function.update_of_ne hm _ _
  refine h.set (.closing s.session ?_ rfl hid (.inl ⟨hself, htask⟩) ?_) rfl (h.born (.inl ?_))
    (fun _ _ => rfl) hother (fun _ _ => rfl) ?_ ?_ h.aborted
  · rcases hopener with h' | h' <;> exact h' ▸ trivial
  · intro m hm
    show _ ∧ ¬ ((s.setCloser s.session .stopping).closers m).Window
    rw [hother m hm]
    exact halone m hm
  · intro hunborn
    rw [hunborn] at hrunning
    exact hrunning
  · have hn := h.tallied s.session
    rw [hcloser] at hn
    show tally (s.loop s.session) ((s.setCloser s.session .stopping).closers s.session) = _
    rw [hself]
    cases hreader : s.loop s.session <;> rw [hreader] at hrunning hn <;>
      first | exact hn | exact hrunning.elim
  · intro k hk
    cases hself.symm.trans hk

/-- A `close` goes on, before its take of the connection id, and may abort the read task. -/
theorem Linked.stop (h : Linked s) {closer : ClosePhase} (task : Option Nat) {aborted : Finset Nat}
    (hwindow : (s.closers n).Window)
    (hcloser : closer = .stopping ∧ task = some n ∨ closer = .waiting n ∨ closer = .naming)
    (haborted : aborted = s.aborted ∨ aborted = insert n s.aborted)
    (hreader : ∀ k, tally (s.loop n) (s.closers n) = some k →
      tally (if n ∈ aborted then .ended else s.readers n) closer = some k)
    (hrunning : n ∈ aborted → (s.readers n).Running ∨ s.readers n = .ended) :
    Linked { s.setCloser n closer with readTask := task, aborted := aborted } := by
  obtain ⟨hopener, hopen, hid, -, halone⟩ := h.stage.of_window hwindow
  have hmem : ∀ m, m ≠ n → (m ∈ aborted ↔ m ∈ s.aborted) := by
    intro m hm
    rcases haborted with rfl | rfl
    · exact .rfl
    · exact ⟨fun hmem => (Finset.mem_insert.mp hmem).resolve_left hm, Finset.mem_insert_of_mem⟩
  have hloops : ∀ m, m ≠ n →
      loop { s.setCloser n closer with readTask := task, aborted := aborted } m = s.loop m := by
    intro m hm
    show (if m ∈ aborted then _ else s.readers m) = if m ∈ s.aborted then _ else s.readers m
    simp only [hmem m hm]
  have hclosers : ∀ m, m ≠ n → (s.setCloser n closer).closers m = s.closers m :=
    fun m hm => Function.update_of_ne hm _ _
  have hself : (s.setCloser n closer).closers n = closer := Function.update_self ..
  refine h.set (.closing n hopener hopen hid ?_ ?_) rfl (h.born (.inr ?_)) hloops hclosers
    (fun _ _ => rfl) ?_ ?_ ?_
  · rw [show closers _ n = closer from hself]
    exact hcloser
  · intro m hm
    rw [hloops m hm, show closers _ m = s.closers m from hclosers m hm]
    exact halone m hm
  · intro hidle
    rw [hidle] at hwindow
    exact hwindow
  · show tally (if n ∈ aborted then .ended else s.readers n) ((s.setCloser n closer).closers n) = _
    rw [hself]
    exact hreader _ (h.tallied n)
  · intro k hk
    rcases hcloser with ⟨rfl, -⟩ | rfl | rfl <;> cases hself.symm.trans hk
  · intro m hm
    by_cases hne : m = n
    · subst hne
      exact hrunning hm
    · exact h.aborted m ((hmem m hne).mp hm)

/-- A `close` takes the connection id of its session. -/
theorem Linked.takeId (h : Linked s) (hcloser : s.closers n = .naming) :
    Linked { s.setCloser n (.announcing n) with connectionId := none } := by
  have hwindow : (s.closers n).Window := hcloser ▸ trivial
  obtain ⟨hopener, hopen, -, -, halone⟩ := h.stage.of_window hwindow
  have hself : (s.setCloser n (.announcing n)).closers n = .announcing n := Function.update_self ..
  have hother : ∀ m, m ≠ n → (s.setCloser n (.announcing n)).closers m = s.closers m :=
    fun m hm => Function.update_of_ne hm _ _
  have hn := h.tallied n
  rw [hcloser] at hn
  refine h.set (.apart hopener hopen ?_) rfl (h.born (.inr (by rw [hcloser]; nofun))) (fun _ _ => rfl)
    hother (fun _ _ => rfl) ?_ ?_ h.aborted
  · intro m
    show ¬ (s.loop m).Running ∧ ¬ ((s.setCloser n (.announcing n)).closers m).Window
    by_cases hm : m = n
    · rw [hm, hself]
      refine ⟨?_, id⟩
      cases hreader : s.loop n <;> rw [hreader] at hn <;> first | exact id | cases hn
    · rw [hother m hm]
      exact halone m hm
  · show tally (s.loop n) ((s.setCloser n (.announcing n)).closers n) = _
    rw [hself]
    cases hreader : s.loop n <;> rw [hreader] at hn <;> exact hn
  · intro k hk
    cases hself.symm.trans hk
    rfl

/-- A `close` sends an event of the end of its session. -/
theorem Linked.sendEnd (h : Linked s) {phase : ClosePhase} {event : ClientEvent}
    (hbefore : ¬ (s.closers n).Window ∧ s.closers n ≠ .idle) (hafter : ¬ phase.Window)
    (hphase : ∀ k, phase ≠ .announcing k) (hcounts : ∀ m, m ≠ n → (s.send event).counts m = s.counts m)
    (hn : tally (s.loop n) phase = some ((s.send event).counts n)) :
    Linked ((s.setCloser n phase).send event) := by
  have hself : (s.setCloser n phase).closers n = phase := Function.update_self ..
  have hother : ∀ m, m ≠ n → (s.setCloser n phase).closers m = s.closers m :=
    fun m hm => Function.update_of_ne hm _ _
  refine h.set (h.stage.aside rfl rfl rfl rfl rfl rfl (fun _ => .inl rfl) ?_) rfl
    (h.born (.inr hbefore.2)) (fun _ _ => rfl) hother hcounts ?_ ?_ h.aborted
  · intro m
    by_cases hm : m = n
    · refine .inr ?_
      subst hm
      refine ⟨hbefore.1, ?_, hbefore.2⟩
      rwa [show ((s.setCloser m phase).send event).closers m = phase from hself]
    · exact .inl (hother m hm)
  · show tally (s.loop n) ((s.setCloser n phase).closers n) = _
    rw [hself]
    exact hn
  · intro k hk
    exact absurd (hself.symm.trans hk) (hphase k)

/-- A `close` that is about to take the read task takes that of its session. -/
theorem Stage.readTask_eq (h : Stage s) (hcloser : s.closers n = .stopping) : s.readTask = some n := by
  have hwindow : (s.closers n).Window := hcloser ▸ trivial
  rcases (h.of_window hwindow).2.2.2.1 with ⟨-, htask⟩ | hc | hc
  · exact htask
  · cases hcloser.symm.trans hc
  · cases hcloser.symm.trans hc

/-- A `close` waits for the read task of its session. -/
theorem Stage.waiting_eq (h : Stage s) {task : Nat} (hcloser : s.closers n = .waiting task) : task = n := by
  have hwindow : (s.closers n).Window := hcloser ▸ trivial
  rcases (h.of_window hwindow).2.2.2.1 with ⟨hc, -⟩ | hc | hc
  · cases hcloser.symm.trans hc
  · cases hcloser.symm.trans hc
    rfl
  · cases hcloser.symm.trans hc

theorem Linked.close (h : Linked s) (hstep : s.close n = some t) : Linked t := by
  have hn := h.tallied n
  unfold Client.close at hstep
  split at hstep
  next hcloser =>
    have hwindow : (s.closers n).Window := hcloser ▸ trivial
    rw [h.stage.readTask_eq hcloser] at hstep
    rw [hcloser] at hn
    cases hkind : s.kind with
    | tcp =>
      rw [hkind] at hstep
      cases hstep
      refine h.stop none hwindow (.inr (.inr rfl)) (.inr rfl) ?_ ?_
      · intro k hk
        rw [hcloser] at hk
        rw [if_pos (Finset.mem_insert_self ..)]
        cases hloop : s.loop n <;> rw [hloop] at hk <;> first | exact hk | cases hk
      · intro _
        by_cases haborted : n ∈ s.aborted
        · exact h.aborted n haborted
        · rw [loop_of_notMem haborted] at hn
          cases hreader : s.readers n <;> rw [hreader] at hn <;>
            first | exact .inl trivial | exact .inr rfl | cases hn
    | serial =>
      rw [hkind] at hstep
      cases hstep
      refine h.stop none hwindow (.inr (.inl rfl)) (.inl rfl) ?_ (h.aborted n)
      intro k hk
      rw [hcloser] at hk
      show tally (s.loop n) _ = _
      cases hloop : s.loop n <;> rw [hloop] at hk <;> exact hk
  next task hcloser =>
    have hwindow : (s.closers n).Window := hcloser ▸ trivial
    obtain rfl := h.stage.waiting_eq hcloser
    split at hstep
    next hended =>
      cases hstep
      refine h.stop s.readTask hwindow (.inr (.inr rfl)) (.inl rfl) ?_ (h.aborted task)
      intro k hk
      rw [hcloser] at hk
      show tally (s.loop task) _ = _
      rw [loop_of_ended hended] at hk ⊢
      exact hk
    · cases hstep
  next hcloser =>
    have hwindow : (s.closers n).Window := hcloser ▸ trivial
    rw [(h.stage.of_window hwindow).2.2.1] at hstep
    cases hstep
    exact h.takeId hcloser
  next id hcloser =>
    cases hstep
    cases h.named n id hcloser
    rw [hcloser] at hn
    refine h.sendEnd (by rw [hcloser]; exact ⟨fun h => h, nofun⟩) (fun h => h) nofun ?_ ?_
    · intro m hm
      rw [counts_send_connectionClose, if_neg hm.symm]
      rfl
    · rw [counts_send_connectionClose, if_pos rfl]
      exact tally_announce.2 _ _ hn
  next hcloser =>
    cases hstep
    rw [hcloser] at hn
    refine h.sendEnd (by rw [hcloser]; exact ⟨fun h => h, nofun⟩) (fun h => h) nofun ?_ ?_
    · intro m hm
      rw [counts_send_close, if_neg hm.symm]
      rfl
    · rw [counts_send_close, if_pos rfl]
      exact tally_close.2 _ hn
  · cases hstep

/-! ## Runs -/

/-- A layer that was just constructed. -/
def new (kind : ClientKind) : Client := { kind := kind }

theorem linked_new (kind : ClientKind) : Linked (new kind) where
  stage := .apart trivial rfl fun _ => ⟨id, id⟩
  tallied := fun _ => rfl
  future := fun _ _ => ⟨rfl, rfl⟩
  named := nofun
  aborted := nofun

theorem Linked.step (h : Linked s) {label : ClientLabel} (hturn : Sequenced s label)
    (hstep : s.step label = some t) : Linked t := by
  cases label with
  | «open» => exact h.open hturn hstep
  | connected result =>
    simp only [Client.step] at hstep
    split at hstep
    next hopener =>
      cases hstep
      exact h.connected hopener trivial
    next hopener =>
      cases hstep
      exact h.connected hopener trivial
    · cases hstep
  | read id result =>
    simp only [Client.step] at hstep
    split at hstep
    next hreader =>
      cases hstep
      obtain ⟨phase, events, heq, hrunning, hevents⟩ := s.read_cases id result
      rw [heq]
      exact h.read events (hreader ▸ trivial) hrunning hevents
    · cases hstep
  | reader id => exact h.reader hturn hstep
  | stop id => exact h.stopped hstep
  | callClose =>
    cases hstep
    split
    next hopen => exact h.callClose hopen
    · exact h
  | close id => exact h.close hstep

/-! ### Going on -/

/-- The `close` of a session goes on to its end. -/
def Closes (s : Client) (n : Nat) : Prop :=
  ∃ k t, exec step s (List.replicate k (.close n)) = some t ∧ t.closers n = .returned

theorem Closes.cons (hstep : s.close n = some t) (h : Closes t n) : Closes s n := by
  obtain ⟨k, u, hrun, hu⟩ := h
  refine ⟨k + 1, u, ?_, hu⟩
  rw [List.replicate_succ, exec_cons]
  show (s.close n).bind _ = _
  rw [hstep]
  exact hrun

theorem closes_of_closing (hcloser : s.closers n = .closing) : Closes s n := by
  have hstep : s.close n = some ((s.setCloser n .returned).send (.close n)) := by
    simp only [Client.close, hcloser]
  exact .cons hstep ⟨0, _, rfl, Function.update_self ..⟩

theorem closes_of_announcing {id : Nat} (hcloser : s.closers n = .announcing id) : Closes s n := by
  have hstep : s.close n = some ((s.setCloser n .closing).send (.connectionClose id)) := by
    simp only [Client.close, hcloser]
  exact .cons hstep (closes_of_closing (Function.update_self ..))

theorem closes_of_naming (hcloser : s.closers n = .naming) : Closes s n := by
  cases hid : s.connectionId with
  | some id =>
    have hstep : s.close n = some { s.setCloser n (.announcing id) with connectionId := none } := by
      simp only [Client.close, hcloser, hid]
    exact .cons hstep (closes_of_announcing (Function.update_self ..))
  | none =>
    have hstep : s.close n = some (s.setCloser n .closing) := by
      simp only [Client.close, hcloser, hid]
    exact .cons hstep (closes_of_closing (Function.update_self ..))

theorem closes_of_waiting {task : Nat} (hcloser : s.closers n = .waiting task)
    (hended : s.readers task = .ended) : Closes s n := by
  have hstep : s.close n = some (s.setCloser n .naming) := by
    simp only [Client.close, hcloser, hended, if_pos]
  exact .cons hstep (closes_of_naming (Function.update_self ..))

/-- Once the read loop of its session has ended, a `close` has nothing to wait for. -/
theorem Linked.closes (h : Linked s) (hended : s.readers n = .ended) (hcloser : s.closers n ≠ .idle) :
    Closes s n := by
  cases hphase : s.closers n with
  | idle => exact absurd hphase hcloser
  | stopping =>
    have htask := h.stage.readTask_eq hphase
    cases hkind : s.kind with
    | tcp =>
      have hstep : s.close n =
          some { s.setCloser n .naming with readTask := none, aborted := insert n s.aborted } := by
        simp only [Client.close, hphase, htask, hkind]
      exact .cons hstep (closes_of_naming (Function.update_self ..))
    | serial =>
      have hstep : s.close n = some { s.setCloser n (.waiting n) with readTask := none } := by
        simp only [Client.close, hphase, htask, hkind]
      exact .cons hstep (closes_of_waiting (Function.update_self ..) hended)
  | waiting task =>
    obtain rfl := h.stage.waiting_eq hphase
    exact closes_of_waiting hphase hended
  | naming => exact closes_of_naming hphase
  | announcing id => exact closes_of_announcing hphase
  | closing => exact closes_of_closing hphase
  | returned => exact ⟨0, s, rfl, hphase⟩

variable {kind : ClientKind} {labels : List ClientLabel}

/-- **A session with a reader**: in every run whose steps are in order, while `is_open` is true the read
loop of the session that is open runs; a session whose read loop has ended has sent one close of its
connection and one close event, unless a `close` has found it open and has still to send them, which then
it always can; and no session sends either twice. -/
theorem session_has_reader (run : exec step (new kind) labels = some s)
    (turns : Meets step Sequenced (new kind) labels) :
    (s.isOpen = true → s.connectionId = some s.session ∧ (s.readers s.session).Running) ∧
      (∀ n, s.readers n = .ended →
        s.log.count (.connectionClose n) = 1 ∧ s.log.count (.close n) = 1 ∨
          s.closers n ≠ .idle ∧ s.closers n ≠ .returned ∧ s.Closes n) ∧
      (∀ n, s.closers n = .returned →
        s.log.count (.connectionClose n) = 1 ∧ s.log.count (.close n) = 1) ∧
      ∀ n, s.log.count (.connectionClose n) ≤ 1 ∧ s.log.count (.close n) ≤ 1 := by
  have h : Linked s := exec_invariant (fun _ _ _ hs hturn hstep => hs.step hturn hstep) run turns
    (linked_new kind)
  refine ⟨?_, ?_, ?_, fun n => tally_le_one (h.tallied n)⟩
  · intro hopen
    obtain ⟨-, hid, -, hreader, -⟩ := h.stage.of_isOpen hopen
    exact ⟨hid, loop_of_notMem (notMem_of_running hreader) ▸ hreader⟩
  · intro n hended
    have hn := h.tallied n
    rw [loop_of_ended hended] at hn
    by_cases hidle : s.closers n = .idle
    · rw [hidle] at hn
      exact .inl (Prod.mk.inj (Option.some.inj hn.symm))
    by_cases hreturned : s.closers n = .returned
    · rw [hreturned] at hn
      exact .inl (Prod.mk.inj (Option.some.inj hn.symm))
    · exact .inr ⟨hidle, hreturned, h.closes hended hidle⟩
  · intro n hreturned
    have hn := h.tallied n
    rw [hreturned] at hn
    cases hloop : s.loop n <;> rw [hloop] at hn <;>
      first | exact Prod.mk.inj (Option.some.inj hn.symm) | cases hn

/-- A session that ends by the peer's close of the connection, and one that is closed while its read task
gets the end of its stream. -/
theorem session_has_reader_ended : ∃ s : Client,
    exec step (new .tcp) [.open, .connected (.ok ()), .open, .open, .open, .open, .open,
        .read 0 (.data [1, 2]), .read 0 .empty, .reader 0, .reader 0, .reader 0, .open, .connected (.ok ()),
        .open, .open, .open, .open, .open, .callClose, .close 1, .read 1 .empty, .reader 1, .close 1,
        .close 1, .close 1] = some s ∧
      (s.log.count (.connectionClose 0) = 1 ∧ s.log.count (.close 0) = 1) ∧
      s.log.count (.connectionClose 1) = 1 ∧ s.log.count (.close 1) = 1 := by
  have run : exec step (new .tcp) [.open, .connected (.ok ()), .open, .open, .open, .open, .open,
    .read 0 (.data [1, 2]), .read 0 .empty, .reader 0, .reader 0, .reader 0, .open, .connected (.ok ()),
    .open, .open, .open, .open, .open, .callClose, .close 1, .read 1 .empty, .reader 1, .close 1, .close 1,
    .close 1] = some _ := rfl
  have turns : Meets step Sequenced (new .tcp) [.open, .connected (.ok ()), .open, .open, .open, .open,
      .open, .read 0 (.data [1, 2]), .read 0 .empty, .reader 0, .reader 0, .reader 0, .open,
      .connected (.ok ()), .open, .open, .open, .open, .open, .callClose, .close 1, .read 1 .empty,
      .reader 1, .close 1, .close 1, .close 1] := by
    refine .cons rfl nofun (.cons rfl trivial (.cons rfl (fun _ _ => id) (.cons rfl nofun (.cons rfl nofun
      (.cons rfl nofun (.cons rfl nofun (.cons rfl trivial (.cons rfl trivial (.cons rfl ?_
      (.cons rfl nofun (.cons rfl nofun (.cons rfl nofun (.cons rfl trivial (.cons rfl (fun _ _ => id)
      (.cons rfl nofun (.cons rfl nofun (.cons rfl nofun (.cons rfl nofun (.cons rfl trivial
      (.cons rfl trivial (.cons rfl trivial (.cons rfl ?_ (.cons rfl trivial (.cons rfl trivial
      (.cons rfl trivial trivial)))))))))))))))))))))))))
    · exact fun _ => ⟨nofun, nofun, fun haborted => absurd haborted (Finset.notMem_empty 0)⟩
    · exact fun _ => ⟨nofun, nofun, fun _ => rfl⟩
  have h := session_has_reader run turns
  exact ⟨_, run, (h.2.1 0 rfl).resolve_right fun h => h.1 rfl, h.2.2.1 1 rfl⟩

/-- **A read loop that ends before its `open` has stored to `is_open`**: the session is open, no task reads
from it, and nothing was announced. A read task that goes on after `close` has aborted it may end the session
that was opened since: its own is announced twice, and the other is closed while its read loop runs. -/
theorem ended_before_open :
    (∃ s : Client, exec step (new .tcp) [.open, .connected (.ok ()), .open, .open, .read 0 .empty, .reader 0,
        .open, .open, .open] = some s ∧
      s.opener = .idle ∧ s.isOpen = true ∧ s.readers s.session = .ended ∧ s.log = []) ∧
    (∃ s : Client, exec step (new .serial) [.open, .connected (.ok ()), .open, .open, .reader 0, .reader 0,
        .open, .open, .open] = some s ∧
      s.opener = .idle ∧ s.isOpen = true ∧ s.readers s.session = .ended ∧ s.log = []) ∧
    ∃ s : Client, exec step (new .tcp) [.open, .connected (.ok ()), .open, .open, .open, .open, .open,
        .read 0 .empty, .callClose, .close 0, .close 0, .close 0, .close 0, .open, .connected (.ok ()), .open,
        .open, .open, .open, .open, .reader 0, .reader 0, .reader 0] = some s ∧
      s.log = [.close 0, .connectionClose 0, .close 0, .connectionClose 0] ∧ s.isOpen = false ∧
      s.readers 1 = .reading :=
  ⟨⟨_, rfl, rfl, rfl, rfl, rfl⟩, ⟨_, rfl, rfl, rfl, rfl, rfl⟩, _, rfl, rfl, rfl, rfl⟩

end Client

end RsModbus.Physical
