import RsModbus.Library.Runs
import RsModbus.Physical.Guards

/-!
# Laws of the guards

* `guards_hold`: when every `open` reads the flags while no other `open` stands before its store to
  `is_opening`, and every `destroy` is done with `is_open` while no `open` is in progress, two calls of
  `open` never both set `is_open` without a close in between, and `is_open` is false for good once a
  `destroy` has returned.
* `opens_overlap`, `open_outlives_destroy`: neither holds without.
-/

namespace RsModbus.Physical

open Library

variable {s t : Guards} {c : Nat}

/-! ## Order -/

/-- An `open` past its look at `is_destroyed` that has still to set `is_open`. -/
def GuardPhase.Opening : GuardPhase → Prop
  | .lookOpen => True
  | .setOpening => True
  | .body _ => True
  | _ => False

/-- No `open` is in progress. -/
def Guards.Quiet (s : Guards) : Prop := ∀ c call, s.calls c = some call → ¬ call.phase.Opening

/-- An `open` that will pass looks at the flags when no other has looked and not yet stored. A `destroy`
swaps `is_open`, or finds that another was first, when no `open` is in progress; in the second case
`is_open` is false. -/
def InTurn (s : Guards) : GuardLabel → Prop
  | .act c _ => ∀ call, s.calls c = some call →
    match call.method, call.phase with
    | _, .lookOpen => s.isOpen = false → s.isOpening = false →
      ∀ c' method, s.calls c' ≠ some ⟨method, .setOpening⟩
    | .destroy, .swap => s.Quiet
    | _, .destroyLook => s.isDestroyed = true → s.isOpen = false ∧ s.Quiet
    | _, _ => True
  | _ => True

/-- The step of an `open` that sets `is_open`. -/
def Guards.Raises (s : Guards) (label : GuardLabel) : Prop :=
  ∃ c result method, label = .act c result ∧ s.calls c = some ⟨method, .body []⟩

/-- The step of a `close`, or of the `close` of a `destroy`, that clears `is_open`; or the end of the
task that an `open` has spawned. -/
def Guards.Lowers (s : Guards) (label : GuardLabel) : Prop :=
  label = .exit ∨ ∃ c result method, label = .act c result ∧ s.calls c = some ⟨method, .swap⟩

/-! ## One `open` at a time -/

/-- An `open` past its look at the flags, to its end. -/
def GuardPhase.Inside : GuardPhase → Prop
  | .setOpening => True
  | .body _ => True
  | .clearOpening => True
  | .failing _ => True
  | _ => False

/-- An `open` past its look at the flags that has still to set `is_open`. -/
def GuardPhase.Raising : GuardPhase → Prop
  | .setOpening => True
  | .body _ => True
  | _ => False

/-- An `open` that has set `is_opening`. -/
def GuardPhase.Flagged : GuardPhase → Prop
  | .body _ => True
  | .clearOpening => True
  | .failing _ => True
  | _ => False

/-- What the calls and the flags are to each other while every `open` looks in its turn. -/
structure Exclusive (s : Guards) : Prop where
  one : ∀ c call c' call', s.calls c = some call → s.calls c' = some call' → call.phase.Inside →
    call'.phase.Inside → c = c'
  low : ∀ c call, s.calls c = some call → call.phase.Raising → s.isOpen = false
  flag : ∀ c call, s.calls c = some call → call.phase.Flagged → s.isOpening = true

/-- The await points of a method. -/
def Method.Stands : Method → GuardPhase → Prop
  | _, .returned _ => True
  | .close, .swap => True
  | .close, .closing => True
  | .destroy, .swap => True
  | .destroy, .closing => True
  | .destroy, .destroyLook => True
  | .destroy, .setDestroyed => True
  | .open _, .lookDestroyed => True
  | .open _, .lookOpen => True
  | .open _, .setOpening => True
  | .open _, .body _ => True
  | .open _, .clearOpening => True
  | .open _, .failing _ => True
  | _, _ => False

theorem Method.Stands.eq_open {method : Method} {phase : GuardPhase} (h : method.Stands phase)
    (hphase : phase = .lookDestroyed ∨ phase = .lookOpen ∨ phase.Inside) : ∃ given, method = .open given := by
  cases method with
  | «open» given => exact ⟨given, rfl⟩
  | close => cases phase <;> simp_all [Stands, GuardPhase.Inside]
  | destroy => cases phase <;> simp_all [Stands, GuardPhase.Inside]

theorem Method.Stands.eq_destroy {method : Method} {phase : GuardPhase} (h : method.Stands phase)
    (hphase : phase = .destroyLook ∨ phase = .setDestroyed) : method = .destroy := by
  cases method with
  | destroy => rfl
  | «open» given => rcases hphase with rfl | rfl <;> exact h.elim
  | close => rcases hphase with rfl | rfl <;> exact h.elim

/-- What the calls and the flags are to each other while every `destroy` closes in its turn. -/
structure Final (s : Guards) : Prop where
  stands : ∀ c call, s.calls c = some call → call.method.Stands call.phase
  swapping : ∀ d, s.calls d = some ⟨.destroy, .swap⟩ → s.isDestroyed = true
  gone : ∀ d phase, s.calls d = some ⟨.destroy, phase⟩ → (phase = .closing ∨ ∃ r, phase = .returned r) →
    s.isDestroyed = true ∧ s.isOpen = false ∧ s.Quiet

theorem calls_setCall {method : Method} {phase : GuardPhase} {c' : Nat} {call : GuardCall}
    (h : (s.setCall c method phase).calls c' = some call) :
    c' = c ∧ call = ⟨method, phase⟩ ∨ c' ≠ c ∧ s.calls c' = some call := by
  have h : Function.update s.calls c _ c' = _ := h
  by_cases hc : c' = c
  · rw [hc, Function.update_self] at h
    exact .inl ⟨hc, (Option.some.inj h).symm⟩
  · rw [Function.update_of_ne hc] at h
    exact .inr ⟨hc, h⟩

theorem GuardPhase.Raising.inside {phase : GuardPhase} (h : phase.Raising) : phase.Inside := by
  cases phase <;> trivial

theorem GuardPhase.Flagged.inside {phase : GuardPhase} (h : phase.Flagged) : phase.Inside := by
  cases phase <;> trivial

namespace Exclusive

/-- A call takes a step, with the flags that the new state has. -/
theorem set (h : Exclusive s) {method : Method} {phase : GuardPhase}
    (hcalls : t.calls = (s.setCall c method phase).calls)
    (hone : phase.Inside → ∀ c' call', c' ≠ c → s.calls c' = some call' → ¬ call'.phase.Inside)
    (hlow : phase.Raising → t.isOpen = false)
    (hflag : phase.Flagged → t.isOpening = true)
    (hothers : ∀ c' call', c' ≠ c → s.calls c' = some call' →
      (call'.phase.Raising → t.isOpen = false) ∧ (call'.phase.Flagged → t.isOpening = true)) :
    Exclusive t where
  one := by
    intro c₁ call₁ c₂ call₂ h₁ h₂ hin₁ hin₂
    rw [hcalls] at h₁ h₂
    rcases calls_setCall h₁ with ⟨rfl, rfl⟩ | ⟨hne₁, hold₁⟩ <;>
      rcases calls_setCall h₂ with ⟨rfl, rfl⟩ | ⟨hne₂, hold₂⟩
    · rfl
    · exact absurd hin₂ (hone hin₁ c₂ call₂ hne₂ hold₂)
    · exact absurd hin₁ (hone hin₂ c₁ call₁ hne₁ hold₁)
    · exact h.one c₁ call₁ c₂ call₂ hold₁ hold₂ hin₁ hin₂
  low := by
    intro c' call' h' hraising
    rw [hcalls] at h'
    rcases calls_setCall h' with ⟨rfl, rfl⟩ | ⟨hne, h'⟩
    · exact hlow hraising
    · exact (hothers c' call' hne h').1 hraising
  flag := by
    intro c' call' h' hflagged
    rw [hcalls] at h'
    rcases calls_setCall h' with ⟨rfl, rfl⟩ | ⟨hne, h'⟩
    · exact hflag hflagged
    · exact (hothers c' call' hne h').2 hflagged

/-- A call takes a step that leaves the flags as they are, or clears `is_open`. -/
theorem move (h : Exclusive s) {method : Method} {phase : GuardPhase}
    (hcalls : t.calls = (s.setCall c method phase).calls)
    (hopen : t.isOpen = s.isOpen ∨ t.isOpen = false) (hopening : t.isOpening = s.isOpening)
    (hone : phase.Inside → ∀ c' call', c' ≠ c → s.calls c' = some call' → ¬ call'.phase.Inside)
    (hlow : phase.Raising → t.isOpen = false)
    (hflag : phase.Flagged → t.isOpening = true) : Exclusive t := by
  refine h.set hcalls hone hlow hflag fun c' call' _ h' => ⟨?_, ?_⟩
  · intro hraising
    rcases hopen with hsame | hfalse
    · exact hsame.trans (h.low c' call' h' hraising)
    · exact hfalse
  · intro hflagged
    exact hopening.trans (h.flag c' call' h' hflagged)

/-- No other call is inside. -/
theorem alone (h : Exclusive s) {call : GuardCall} (hcall : s.calls c = some call)
    (hinside : call.phase.Inside) :
    ∀ c' call', c' ≠ c → s.calls c' = some call' → ¬ call'.phase.Inside :=
  fun c' call' hne h' hin => hne (h.one c' call' c call h' hcall hin hinside)

theorem act (h : Exclusive s) {call : GuardCall} {result : Except ModbusError Unit}
    (hcall : s.calls c = some call) (hturn : InTurn s (.act c result))
    (hstep : s.act c call.method result call.phase = some t) : Exclusive t := by
  obtain ⟨method, phase⟩ := call
  have hflags : (∀ c' call', c' ≠ c → s.calls c' = some call' → ¬ call'.phase.Inside) →
      ∀ c' call', c' ≠ c → s.calls c' = some call' →
        (call'.phase.Raising → t.isOpen = false) ∧ (call'.phase.Flagged → t.isOpening = true) :=
    fun halone c' call' hne h' => ⟨fun hr => absurd hr.inside (halone c' call' hne h'),
      fun hf => absurd hf.inside (halone c' call' hne h')⟩
  cases phase with
  | lookDestroyed =>
    cases hstep
    split
    · exact h.move rfl (.inl rfl) rfl nofun nofun nofun
    · exact h.move rfl (.inl rfl) rfl nofun nofun nofun
  | lookOpen =>
    cases hstep
    split
    · exact h.move rfl (.inl rfl) rfl nofun nofun nofun
    next hflagsDown =>
      have hopen : s.isOpen = false := by
        by_contra hne
        exact hflagsDown (by rw [eq_true_of_ne_false hne]; rfl)
      have hopening : s.isOpening = false := by
        by_contra hne
        exact hflagsDown (by rw [eq_true_of_ne_false hne, Bool.or_true])
      refine h.move rfl (.inl rfl) rfl ?_ (fun _ => hopen) nofun
      intro _ c' call' _ h' hinside
      obtain ⟨method', phase'⟩ := call'
      cases phase' with
      | setOpening => exact hturn _ hcall hopen hopening c' method' h'
      | body awaits => cases hopening.symm.trans (h.flag c' _ h' trivial)
      | clearOpening => cases hopening.symm.trans (h.flag c' _ h' trivial)
      | failing e => cases hopening.symm.trans (h.flag c' _ h' trivial)
      | _ => exact hinside
  | setOpening =>
    cases hstep
    have halone := h.alone hcall trivial
    exact h.set rfl (fun _ => halone) (fun _ => h.low c _ hcall trivial) (fun _ => rfl)
      (hflags halone)
  | body awaits =>
    have halone := h.alone hcall trivial
    cases awaits with
    | nil =>
      cases hstep
      exact h.set rfl (fun _ => halone) nofun (fun _ => h.flag c _ hcall trivial)
        (hflags halone)
    | cons await awaits =>
      have hnext : ∃ phase', t = s.setCall c method phase' ∧ phase'.Flagged := by
        simp only [Guards.act] at hstep
        split at hstep
        · exact ⟨_, (Option.some.inj hstep).symm, trivial⟩
        · exact ⟨_, (Option.some.inj hstep).symm, trivial⟩
      obtain ⟨phase', rfl, hflagged⟩ := hnext
      exact h.move rfl (.inl rfl) rfl (fun _ => halone) (fun _ => h.low c _ hcall trivial)
        (fun _ => h.flag c _ hcall trivial)
  | clearOpening =>
    cases hstep
    exact h.set rfl nofun nofun nofun
      (hflags (h.alone hcall trivial))
  | failing e =>
    cases hstep
    exact h.set rfl nofun nofun nofun
      (hflags (h.alone hcall trivial))
  | swap =>
    cases hstep
    dsimp only
    split
    · exact h.move rfl (.inr rfl) rfl nofun nofun nofun
    · exact h.move rfl (.inr rfl) rfl nofun nofun nofun
  | closing =>
    cases hstep
    exact h.move rfl (.inl rfl) rfl nofun nofun nofun
  | destroyLook =>
    cases hstep
    split
    · exact h.move rfl (.inl rfl) rfl nofun nofun nofun
    · exact h.move rfl (.inl rfl) rfl nofun nofun nofun
  | setDestroyed =>
    cases hstep
    exact h.move rfl (.inl rfl) rfl nofun nofun nofun
  | returned r => cases hstep

theorem init (layer : GuardedLayer) : Exclusive { layer := layer } :=
  ⟨(fun _ _ _ _ h => nomatch h), nofun, nofun⟩

theorem step (h : Exclusive s) {label : GuardLabel} (hturn : InTurn s label)
    (hstep : s.step label = some t) : Exclusive t := by
  cases label with
  | call c method =>
    simp only [Guards.step] at hstep
    split at hstep
    · cases hstep
    · cases hstep
      have hstart : ¬ method.start.Inside := by cases method <;> exact fun hin => hin
      exact h.move rfl (.inl rfl) rfl (fun hin => absurd hin hstart)
        (fun hr => absurd hr.inside hstart) (fun hf => absurd hf.inside hstart)
  | act c result =>
    obtain ⟨call, hcall, hact⟩ := Option.bind_eq_some_iff.mp hstep
    exact h.act hcall hturn hact
  | exit =>
    cases hstep
    exact ⟨h.one, fun _ _ _ _ => rfl, h.flag⟩

end Exclusive

/-! ## `destroy` is final -/

namespace Final

theorem init (layer : GuardedLayer) : Final { layer := layer } := ⟨nofun, nofun, nofun⟩

/-- A call takes a step, with the flags that the new state has. -/
theorem move (h : Final s) {method : Method} {phase : GuardPhase}
    (hcalls : t.calls = (s.setCall c method phase).calls) (hstands : method.Stands phase)
    (hdestroyed : s.isDestroyed = true → t.isDestroyed = true)
    (hopen : s.isDestroyed = true → s.isOpen = false → s.Quiet → t.isOpen = false)
    (hopening : phase.Opening → s.isDestroyed = true → ¬ s.Quiet)
    (hswap : method = .destroy → phase = .swap → t.isDestroyed = true)
    (hgone : method = .destroy → (phase = .closing ∨ ∃ r, phase = .returned r) →
      t.isDestroyed = true ∧ t.isOpen = false ∧ s.Quiet) : Final t where
  stands := by
    intro c' call' h'
    rw [hcalls] at h'
    rcases calls_setCall h' with ⟨rfl, rfl⟩ | ⟨-, hold⟩
    · exact hstands
    · exact h.stands c' call' hold
  swapping := by
    intro d hd
    rw [hcalls] at hd
    rcases calls_setCall hd with ⟨rfl, heq⟩ | ⟨-, hold⟩
    · cases heq
      exact hswap rfl rfl
    · exact hdestroyed (h.swapping d hold)
  gone := by
    intro d phase' hd hphase
    have hfacts : t.isDestroyed = true ∧ t.isOpen = false ∧ s.Quiet ∧ (phase.Opening → ¬ s.Quiet) := by
      rw [hcalls] at hd
      rcases calls_setCall hd with ⟨rfl, heq⟩ | ⟨-, hold⟩
      · cases heq
        obtain ⟨htd, hto, hq⟩ := hgone rfl hphase
        refine ⟨htd, hto, hq, ?_⟩
        intro hphase'
        rcases hphase with rfl | ⟨r, rfl⟩ <;> exact hphase'.elim
      · obtain ⟨hsd, hso, hq⟩ := h.gone d phase' hold hphase
        exact ⟨hdestroyed hsd, hopen hsd hso hq, hq, fun hphase' => hopening hphase' hsd⟩
    obtain ⟨htd, hto, hq, hnot⟩ := hfacts
    refine ⟨htd, hto, ?_⟩
    intro c' call' h' hopening'
    rw [hcalls] at h'
    rcases calls_setCall h' with ⟨rfl, rfl⟩ | ⟨-, hold⟩
    · exact hnot hopening' hq
    · exact hq c' call' hold hopening'

/-- A step of an `open` that leaves the flags as they are. -/
theorem keep (h : Final s) {given : Bool} {phase : GuardPhase}
    (hcalls : t.calls = (s.setCall c (.open given) phase).calls) (hstands : (Method.open given).Stands phase)
    (hdestroyed : t.isDestroyed = s.isDestroyed) (hopen : t.isOpen = s.isOpen)
    (hopening : phase.Opening → s.isDestroyed = true → ¬ s.Quiet) : Final t :=
  h.move hcalls hstands hdestroyed.trans (fun _ ho _ => hopen.trans ho) hopening nofun nofun

theorem act (h : Final s) {call : GuardCall} {result : Except ModbusError Unit}
    (hcall : s.calls c = some call) (hturn : InTurn s (.act c result))
    (hstep : s.act c call.method result call.phase = some t) : Final t := by
  obtain ⟨method, phase⟩ := call
  have hstands := h.stands c _ hcall
  have hbusy : phase.Opening → ¬ s.Quiet := fun hphase hq => hq c _ hcall hphase
  cases phase with
  | lookDestroyed =>
    cases hstep
    obtain ⟨given, rfl⟩ := hstands.eq_open (.inl rfl)
    split
    · exact h.keep rfl trivial rfl rfl nofun
    next hlive => exact h.keep rfl trivial rfl rfl fun _ hd => absurd hd hlive
  | lookOpen =>
    cases hstep
    obtain ⟨given, rfl⟩ := hstands.eq_open (.inr (.inl rfl))
    split
    · exact h.keep rfl trivial rfl rfl nofun
    · exact h.keep rfl trivial rfl rfl fun _ _ => hbusy trivial
  | setOpening =>
    cases hstep
    obtain ⟨given, rfl⟩ := hstands.eq_open (.inr (.inr trivial))
    exact h.keep rfl trivial rfl rfl fun _ _ => hbusy trivial
  | body awaits =>
    obtain ⟨given, rfl⟩ := hstands.eq_open (.inr (.inr trivial))
    cases awaits with
    | nil =>
      cases hstep
      exact h.move rfl trivial id (fun _ _ hq => absurd hq (hbusy trivial)) nofun nofun nofun
    | cons await awaits =>
      simp only [Guards.act] at hstep
      split at hstep
      · cases hstep
        exact h.keep rfl trivial rfl rfl nofun
      · cases hstep
        exact h.keep rfl trivial rfl rfl fun _ _ => hbusy trivial
  | clearOpening =>
    cases hstep
    obtain ⟨given, rfl⟩ := hstands.eq_open (.inr (.inr trivial))
    exact h.keep rfl trivial rfl rfl nofun
  | failing e =>
    cases hstep
    obtain ⟨given, rfl⟩ := hstands.eq_open (.inr (.inr trivial))
    exact h.keep rfl trivial rfl rfl nofun
  | swap =>
    cases hstep
    have hgone : method = .destroy → s.isDestroyed = true ∧ s.Quiet := by
      rintro rfl
      exact ⟨h.swapping c hcall, hturn _ hcall⟩
    split
    · cases method with
      | «open» given => exact hstands.elim
      | close => exact h.move rfl trivial id (fun _ _ _ => rfl) nofun nofun nofun
      | destroy =>
        exact h.move rfl trivial id (fun _ _ _ => rfl) nofun nofun
          (fun hm _ => ⟨(hgone hm).1, rfl, (hgone hm).2⟩)
    · exact h.move rfl trivial id (fun _ _ _ => rfl) nofun nofun
        (fun hm _ => ⟨(hgone hm).1, rfl, (hgone hm).2⟩)
  | closing =>
    cases hstep
    refine h.move rfl trivial id (fun _ ho _ => ho) nofun nofun ?_
    rintro rfl -
    exact h.gone c _ hcall (.inl rfl)
  | destroyLook =>
    cases hstep
    split
    next hdestroyed =>
      obtain ⟨hclosed, hquiet⟩ := hturn _ hcall hdestroyed
      exact h.move rfl trivial id (fun _ ho _ => ho) nofun nofun (fun _ _ => ⟨hdestroyed, hclosed, hquiet⟩)
    · obtain rfl := hstands.eq_destroy (.inl rfl)
      exact h.move rfl trivial id (fun _ ho _ => ho) nofun nofun nofun
  | setDestroyed =>
    cases hstep
    obtain rfl := hstands.eq_destroy (.inr rfl)
    exact h.move rfl trivial (fun _ => rfl) (fun _ ho _ => ho) nofun (fun _ _ => rfl) nofun
  | returned r => cases hstep

theorem step (h : Final s) {label : GuardLabel} (hturn : InTurn s label)
    (hstep : s.step label = some t) : Final t := by
  cases label with
  | call c method =>
    simp only [Guards.step] at hstep
    split at hstep
    · cases hstep
    · cases hstep
      cases method with
      | «open» given => exact h.move rfl trivial id (fun _ ho _ => ho) nofun nofun nofun
      | close => exact h.move rfl trivial id (fun _ ho _ => ho) nofun nofun nofun
      | destroy => exact h.move rfl trivial id (fun _ ho _ => ho) nofun nofun nofun
  | act c result =>
    obtain ⟨call, hcall, hact⟩ := Option.bind_eq_some_iff.mp hstep
    exact h.act hcall hturn hact
  | exit =>
    cases hstep
    refine ⟨h.stands, h.swapping, ?_⟩
    intro d phase hd hphase
    obtain ⟨hsd, -, hq⟩ := h.gone d phase hd hphase
    exact ⟨hsd, rfl, hq⟩

end Final

/-! ## Runs -/

/-- The layer as it was constructed. -/
def Guards.new (layer : GuardedLayer) : Guards := { layer := layer }

variable {layer : GuardedLayer}

theorem guarded_of_run {labels : List GuardLabel} (run : exec Guards.step (.new layer) labels = some s)
    (turns : Meets Guards.step InTurn (.new layer) labels) : Exclusive s ∧ Final s :=
  exec_invariant (P := fun s => Exclusive s ∧ Final s) (fun _ _ _ hs hturn hstep =>
    ⟨hs.1.step hturn hstep, hs.2.step hturn hstep⟩) run turns ⟨.init layer, .init layer⟩

/-- A step that does not lower `is_open` leaves it true. -/
theorem isOpen_step {label : GuardLabel} (hopen : s.isOpen = true) (hlowers : ¬ s.Lowers label)
    (hstep : s.step label = some t) : t.isOpen = true := by
  cases label with
  | call c method =>
    simp only [Guards.step] at hstep
    split at hstep <;> cases hstep
    exact hopen
  | act c result =>
    obtain ⟨⟨method, phase⟩, hcall, hact⟩ := Option.bind_eq_some_iff.mp hstep
    cases phase with
    | swap => exact absurd (.inr ⟨c, result, method, rfl, hcall⟩) hlowers
    | body awaits =>
      cases awaits with
      | nil => cases hact; rfl
      | cons await awaits =>
        simp only [Guards.act] at hact
        split at hact <;> cases hact <;> exact hopen
    | returned r => cases hact
    | _ => cases hact; exact hopen
  | exit => exact absurd (.inl rfl) hlowers

/-- While `is_open` goes from true to false, some step lowers it. -/
theorem exists_lowers {labels : List GuardLabel} (hopen : s.isOpen = true)
    (run : exec Guards.step s labels = some t) (hclosed : t.isOpen = false) :
    ∃ before label after u, labels = before ++ label :: after ∧
      exec Guards.step s before = some u ∧ u.Lowers label := by
  induction labels generalizing s with
  | nil =>
    cases run
    cases hopen.symm.trans hclosed
  | cons label labels ih =>
    obtain ⟨u, hu, hrest⟩ := exec_cons_eq_some run
    by_cases hlowers : s.Lowers label
    · exact ⟨[], label, labels, s, rfl, rfl, hlowers⟩
    · obtain ⟨before, label', after, v, rfl, hv, hl⟩ := ih (isOpen_step hopen hlowers hu) hrest
      refine ⟨label :: before, label', after, v, rfl, ?_, hl⟩
      rw [exec_cons, hu]
      exact hv

theorem Guards.Raises.isOpen {label : GuardLabel} (h : s.Raises label) (hstep : s.step label = some t) :
    t.isOpen = true := by
  obtain ⟨c, result, method, rfl, hcall⟩ := h
  obtain ⟨call, hcall', hact⟩ := Option.bind_eq_some_iff.mp hstep
  cases hcall.symm.trans hcall'
  cases hact
  rfl

/-- **Open is exclusive and destroy is final** when every call is in its turn: between two steps of a run
that set `is_open` there is one that lowers it, and `is_open` is false once a `destroy` has returned. -/
theorem guards_hold {labels : List GuardLabel} (run : exec Guards.step (.new layer) labels = some s)
    (turns : Meets Guards.step InTurn (.new layer) labels) :
    (∀ before first between second after s₁ s₂ s₃,
      labels = before ++ first :: (between ++ second :: after) →
      exec Guards.step (.new layer) before = some s₁ → s₁.Raises first → s₁.step first = some s₂ →
      exec Guards.step s₂ between = some s₃ → s₃.Raises second →
      ∃ pre label post u, between = pre ++ label :: post ∧
        exec Guards.step s₂ pre = some u ∧ u.Lowers label) ∧
    ((∃ d r, s.calls d = some ⟨.destroy, .returned r⟩) → s.isOpen = false) := by
  constructor
  · intro before first between second after s₁ s₂ s₃ hlabels hbefore hfirst hstep hbetween hsecond
    subst hlabels
    have hturns : Meets Guards.step InTurn (.new layer) (before ++ first :: between) := by
      rw [List.append_cons, ← List.append_assoc, ← List.append_cons] at turns
      exact turns.of_append
    have hrun : exec Guards.step (.new layer) (before ++ first :: between) = some s₃ := by
      rw [exec_append, hbefore, Option.bind_some, exec_cons, hstep]
      exact hbetween
    have hclosed : s₃.isOpen = false := by
      obtain ⟨c, result, method, -, hcall⟩ := hsecond
      exact (guarded_of_run hrun hturns).1.low c _ hcall trivial
    exact exists_lowers (hfirst.isOpen hstep) hbetween hclosed
  · rintro ⟨d, r, hd⟩
    exact ((guarded_of_run run turns).2.gone d _ hd (.inr ⟨r, rfl⟩)).2.1

/-- Two calls of `open` that return `Ok`, with a `close` in between, a `destroy`, and an `open` after it. -/
theorem guards_hold_destroyed : ∃ s₁ s₂ s₃ s : Guards,
    exec Guards.step (.new .tcpClient) (.call 0 (.open true) :: List.replicate 7 (.act 0 (.ok ()))) = some s₁ ∧
    s₁.step (.act 0 (.ok ())) = some s₂ ∧ s₂.isOpen = true ∧
    exec Guards.step s₂ ([.act 0 (.ok ()), .call 1 .close, .act 1 (.ok ()), .act 1 (.ok ()),
      .call 2 (.open true)] ++ List.replicate 7 (.act 2 (.ok ()))) = some s₃ ∧
    exec Guards.step s₃ (.act 2 (.ok ()) :: [.act 2 (.ok ()), .call 3 .destroy, .act 3 (.ok ()),
      .act 3 (.ok ()), .act 3 (.ok ()), .act 3 (.ok ()), .call 4 (.open true), .act 4 (.ok ())]) = some s ∧
    s.calls 0 = some ⟨.open true, .returned (.ok ())⟩ ∧ s.calls 2 = some ⟨.open true, .returned (.ok ())⟩ ∧
    s.calls 3 = some ⟨.destroy, .returned (.ok ())⟩ ∧
    s.calls 4 = some ⟨.open true, .returned (.error .portDestroyed)⟩ ∧
    (∃ pre label post u, [.act 0 (.ok ()), .call 1 .close, .act 1 (.ok ()), .act 1 (.ok ()),
        .call 2 (.open true)] ++ List.replicate 7 (.act 2 (.ok ())) = pre ++ label :: post ∧
      exec Guards.step s₂ pre = some u ∧ u.Lowers label) ∧ s.isOpen = false := by
  have turns : Meets Guards.step InTurn (.new .tcpClient)
      ((.call 0 (.open true) :: List.replicate 7 (.act 0 (.ok ()))) ++ .act 0 (.ok ()) ::
        (([.act 0 (.ok ()), .call 1 .close, .act 1 (.ok ()), .act 1 (.ok ()), .call 2 (.open true)] ++
          List.replicate 7 (.act 2 (.ok ()))) ++ .act 2 (.ok ()) :: [.act 2 (.ok ()), .call 3 .destroy,
            .act 3 (.ok ()), .act 3 (.ok ()), .act 3 (.ok ()), .act 3 (.ok ()), .call 4 (.open true),
            .act 4 (.ok ())])) := by
    refine .cons rfl trivial (.cons rfl ?_ (.cons rfl ?_ (.cons rfl ?_ (.cons rfl ?_ (.cons rfl ?_
      (.cons rfl ?_ (.cons rfl ?_ (.cons rfl ?_ (.cons rfl ?_ (.cons rfl trivial (.cons rfl ?_
      (.cons rfl ?_ (.cons rfl trivial (.cons rfl ?_ (.cons rfl ?_ (.cons rfl ?_ (.cons rfl ?_ (.cons rfl ?_
      (.cons rfl ?_ (.cons rfl ?_ (.cons rfl ?_ (.cons rfl ?_ (.cons rfl trivial (.cons rfl ?_ (.cons rfl ?_
      (.cons rfl ?_ (.cons rfl ?_ (.cons rfl trivial (.cons rfl ?_ trivial)))))))))))))))))))))))))))))
    -- Most steps are no look at the flags; the others find no call in the way.
    all_goals first
      | (rintro call ⟨⟩; trivial)
      | (rintro call ⟨⟩ ⟨⟩; done)
      | (rintro call ⟨⟩ - - c method hcall; rcases c with _ | _ | _ | c <;> cases hcall)
      | (rintro call ⟨⟩ c call hcall; rcases c with _ | _ | _ | _ | c <;> cases hcall <;> exact id)
  have h := guards_hold (s := _) rfl turns
  refine ⟨_, _, _, _, rfl, rfl, rfl, rfl, rfl, rfl, rfl, rfl, rfl, ?_, h.2 ⟨3, .ok (), rfl⟩⟩
  exact h.1 _ _ _ _ _ _ _ _ rfl rfl ⟨0, .ok (), .open true, rfl, rfl⟩ rfl rfl
    ⟨2, .ok (), .open true, rfl, rfl⟩

/-- Two calls of `open` look at the flags before either stores to `is_opening`: both return `Ok`. -/
theorem opens_overlap : ∀ layer : GuardedLayer, ∃ s : Guards,
    exec Guards.step (.new layer)
        ([.call 0 (.open true), .call 1 (.open true), .act 0 (.ok ()), .act 1 (.ok ()),
            .act 0 (.ok ()), .act 1 (.ok ())] ++
          List.replicate (3 + (layer.awaits true).length) (.act 0 (.ok ())) ++
          List.replicate (3 + (layer.awaits true).length) (.act 1 (.ok ()))) = some s ∧
      s.calls 0 = some ⟨.open true, .returned (.ok ())⟩ ∧
      s.calls 1 = some ⟨.open true, .returned (.ok ())⟩ ∧ s.isOpen = true := by
  intro layer
  cases layer <;> exact ⟨_, rfl, rfl, rfl, rfl⟩

/-- A `destroy` that runs while an `open` of the layer is in progress returns, and the `open` then sets
`is_open`. -/
def GuardedLayer.Outlives (layer : GuardedLayer) : Prop :=
  ∃ s : Guards,
    exec Guards.step (.new layer)
        ([.call 0 (.open true), .act 0 (.ok ()), .act 0 (.ok ()), .act 0 (.ok ()),
            .call 1 .destroy, .act 1 (.ok ()), .act 1 (.ok ()), .act 1 (.ok ())] ++
          List.replicate (2 + (layer.awaits true).length) (.act 0 (.ok ()))) = some s ∧
      s.calls 1 = some ⟨.destroy, .returned (.ok ())⟩ ∧ s.isOpen = true

theorem open_outlives_destroy : GuardedLayer.tcpClient.Outlives ∧ GuardedLayer.tcpServer.Outlives ∧
    GuardedLayer.udpServer.Outlives ∧ GuardedLayer.udpClient.Outlives :=
  ⟨⟨_, rfl, rfl, rfl⟩, ⟨_, rfl, rfl, rfl⟩, ⟨_, rfl, rfl, rfl⟩, ⟨_, rfl, rfl, rfl⟩⟩

end RsModbus.Physical
