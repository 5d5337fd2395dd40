import RsModbus.Application.Tasks
import RsModbus.Application.Tcp
import RsModbus.Laws.Streams

/-!
# Delivery over the two channels

* `Tasks.delivery`: in every run the data task and the framing tasks receive in order and nothing
  twice; in a run in which every send finds room for one more unread value, nothing is lost; and a
  run that ends with everything received lost something exactly if some send found no room.
* `Tasks.overrun_loses_frames`: 80 frames in one chunk are enough to lose 16 of them.

A send with no room overwrites a value some receiver has not read (`lost_of_full`), and what is lost
stays lost (`lost_step`); a send with room keeps every value (`intact_step`).
-/

namespace RsModbus.Tasks

open Library

variable {φ ι κ ρ : Type} [DecidableEq ι] {framer : Framer φ κ ρ}

/-- The framings of a list of emissions. -/
def framingsOf (emits : List (Emit κ ρ)) : List (Framing κ ρ) :=
  emits.filterMap fun
    | .framing f => some f
    | .framingError _ => none

/-- What a publisher has in a log. -/
def ofPublisher {α : Type} (p : Publisher) (log : List (Publisher × α)) : List α :=
  (log.filter (·.1 = p)).map Prod.snd

/-- A call of the framer, its emissions with the publisher that made it. -/
def callAs (framer : Framer φ κ ρ) (s : φ) (call : Publisher × Rtu.Input κ ρ) :
    φ × List (Publisher × Emit κ ρ) :=
  ((framer s call.2).1, (framer s call.2).2.map (call.1, ·))

/-- The send this step makes, if any, finds fewer than the channel's capacity unread by each of its
receivers. -/
def HasRoom (s : Channels φ ι κ ρ) : Label ι κ ρ → Prop
  | .publish _ => s.dataTask.Room dataCapacity s.events
  | .send p =>
    match s.outboxes p with
    | .framing _ :: _ => ∀ i, (s.framingTasks i).Room framingCapacity s.framings
    | _ => True
  | _ => True

/-- Every value sent so far was received, in order, or is still kept for its receiver. -/
def AllKept (s : Channels φ ι κ ρ) : Prop :=
  s.dataTask.Intact dataCapacity s.events ∧
    ∀ i, (s.framingTasks i).Intact framingCapacity s.framings

/-- Some receiver has lost a value. -/
def SomeLost (s : Channels φ ι κ ρ) : Prop :=
  s.dataTask.Overrun dataCapacity s.events ∨
    ∃ i, (s.framingTasks i).Overrun framingCapacity s.framings

/-- Every receiver has received in order, each value at most once. -/
def AllOrdered (s : Channels φ ι κ ρ) : Prop :=
  s.dataTask.Ordered s.events ∧ ∀ i, (s.framingTasks i).Ordered s.framings

/-- Every receiver has read to the end of its channel. -/
def CaughtUp (s : Channels φ ι κ ρ) : Prop :=
  s.dataTask.CaughtUp s.events ∧ ∀ i, (s.framingTasks i).CaughtUp s.framings

/-- Every event and every frame was received exactly once and in order. -/
def AllReceived (s : Channels φ ι κ ρ) : Prop :=
  s.dataTask.got = s.events ∧ ∀ i, (s.framingTasks i).got = s.framings

/-- The framer has been called as the log says, by the data task with the events received, one after
the other; and each publisher has sent, in order, the frames of its calls, or has still to send them. -/
structure Extracted (framer : Framer φ κ ρ) (init : φ) (s : Channels φ ι κ ρ) : Prop where
  state : s.framer = (feedAll (callAs framer) init s.calls).1
  events : ofPublisher .dataTask s.calls = s.dataTask.got.map fun event => .layer (.data event)
  frames : ∀ p, ofPublisher p s.framings ++ framingsOf (s.outboxes p) =
    framingsOf (ofPublisher p (feedAll (callAs framer) init s.calls).2)

/-! ## Logs -/

section Logs

variable {α : Type} {p q : Publisher}

theorem ofPublisher_append (p : Publisher) (xs ys : List (Publisher × α)) :
    ofPublisher p (xs ++ ys) = ofPublisher p xs ++ ofPublisher p ys := by
  rw [ofPublisher, List.filter_append, List.map_append]
  rfl

theorem ofPublisher_self (p : Publisher) (xs : List α) : ofPublisher p (xs.map (p, ·)) = xs := by
  have hall : ∀ x ∈ xs.map (p, ·), decide (x.1 = p) = true := by
    intro x hx
    obtain ⟨_, -, rfl⟩ := List.mem_map.mp hx
    exact decide_eq_true rfl
  rw [ofPublisher, List.filter_eq_self.mpr hall, List.map_map]
  exact List.map_id xs

theorem ofPublisher_of_ne (h : q ≠ p) (xs : List α) : ofPublisher p (xs.map (q, ·)) = [] := by
  have hnone : ∀ x ∈ xs.map (q, ·), ¬ decide (x.1 = p) = true := by
    intro x hx
    obtain ⟨_, -, rfl⟩ := List.mem_map.mp hx
    exact fun heq => h (of_decide_eq_true heq)
  rw [ofPublisher, List.filter_eq_nil_iff.mpr hnone]
  rfl

theorem framingsOf_append (xs ys : List (Emit κ ρ)) :
    framingsOf (xs ++ ys) = framingsOf xs ++ framingsOf ys := List.filterMap_append

end Logs

/-! ## Steps -/

section Steps

variable {s t : Channels φ ι κ ρ} {a : Label ι κ ρ}

/-- What a step does. -/
theorem step_cases (h : step framer s a = some t) :
    (∃ event, a = .publish event ∧ t = { s with events := s.events ++ [event] }) ∨
    (∃ event, a = .receiveData ∧ s.outboxes .dataTask = [] ∧
      s.dataTask.next? dataCapacity s.events = some event ∧
      t = { s with dataTask := s.dataTask.recv dataCapacity s.events }.call framer .dataTask
        (.layer (.data event))) ∨
    (a = .receiveData ∧ s.dataTask.next? dataCapacity s.events = none ∧
      t = { s with dataTask := s.dataTask.recv dataCapacity s.events }) ∨
    (∃ n input, a = .react n input ∧ s.outboxes (.task n) = [] ∧ t = s.call framer (.task n) input) ∨
    (∃ p f rest, a = .send p ∧ s.outboxes p = .framing f :: rest ∧
      t = { s with framings := s.framings ++ [(p, f)], outboxes := Function.update s.outboxes p rest }) ∨
    (∃ p e rest, a = .send p ∧ s.outboxes p = .framingError e :: rest ∧
      t = { s with outboxes := Function.update s.outboxes p rest }) ∨
    (∃ i sub, a = .receiveFraming i ∧ sub = (s.framingTasks i).recv framingCapacity s.framings ∧
      t = { s with framingTasks := Function.update s.framingTasks i sub }) := by
  cases a with
  | publish event =>
    cases h
    exact .inl ⟨event, rfl, rfl⟩
  | receiveData =>
    simp only [step] at h
    split at h
    next hempty =>
      split at h
      next event hnext =>
        cases h
        exact .inr (.inl ⟨event, rfl, List.isEmpty_iff.mp hempty, hnext, rfl⟩)
      next hnext =>
        cases h
        exact .inr (.inr (.inl ⟨rfl, hnext, rfl⟩))
    · cases h
  | react n input =>
    have hcall : (if (s.outboxes (.task n)).isEmpty then some (s.call framer (.task n) input)
        else none) = some t := by
      cases input with
      | timer m => exact h
      | layer input =>
        cases input with
        | data event => cases h
        | connectionClose connection => exact h
        | flush => exact h
    split at hcall
    next hempty =>
      cases hcall
      exact .inr (.inr (.inr (.inl ⟨n, input, rfl, List.isEmpty_iff.mp hempty, rfl⟩)))
    · cases hcall
  | send p =>
    simp only [step] at h
    split at h
    next f rest hbox =>
      cases h
      exact .inr (.inr (.inr (.inr (.inl ⟨p, f, rest, rfl, hbox, rfl⟩))))
    next e rest hbox =>
      cases h
      exact .inr (.inr (.inr (.inr (.inr (.inl ⟨p, e, rest, rfl, hbox, rfl⟩)))))
    · cases h
  | receiveFraming i =>
    cases h
    exact .inr (.inr (.inr (.inr (.inr (.inr ⟨i, _, rfl, rfl, rfl⟩)))))

/-- A property of the receivers of one channel, kept by every receive and every send. -/
theorem forall_update_recv {α : Type} {P : Subscriber α → Prop} {tasks : ι → Subscriber α}
    {i : ι} {sub : Subscriber α} (h : ∀ j, P (tasks j)) (hi : P sub) :
    ∀ j, P (Function.update tasks i sub j) := by
  intro j
  by_cases hj : j = i
  · subst hj
    rwa [Function.update_self]
  · rw [Function.update_of_ne hj]
    exact h j

theorem ordered_step (h : AllOrdered s) (hs : step framer s a = some t) : AllOrdered t := by
  obtain ⟨hdata, hframing⟩ := h
  rcases step_cases hs with ⟨event, -, rfl⟩ | ⟨event, -, -, -, rfl⟩ | ⟨-, -, rfl⟩ |
    ⟨n, input, -, -, rfl⟩ | ⟨p, f, rest, -, -, rfl⟩ | ⟨p, e, rest, -, -, rfl⟩ | ⟨i, _, -, rfl, rfl⟩
  · exact ⟨Subscriber.ordered_send event hdata, hframing⟩
  · exact ⟨Subscriber.ordered_recv hdata, hframing⟩
  · exact ⟨Subscriber.ordered_recv hdata, hframing⟩
  · exact ⟨hdata, hframing⟩
  · exact ⟨hdata, fun j => Subscriber.ordered_send (p, f) (hframing j)⟩
  · exact ⟨hdata, hframing⟩
  · exact ⟨hdata, forall_update_recv hframing (Subscriber.ordered_recv (hframing i))⟩

omit [DecidableEq ι] in
/-- A call of the framer, of a publisher that has sent what it extracted before. -/
theorem Extracted.call {init : φ} (h : Extracted framer init s) {p : Publisher}
    {input : Rtu.Input κ ρ} (hempty : s.outboxes p = []) {dataTask : Subscriber (DataEvent κ ρ)}
    (hevents : ofPublisher .dataTask (s.calls ++ [(p, input)]) =
      dataTask.got.map fun event => .layer (.data event)) :
    Extracted framer init ({ s with dataTask := dataTask }.call framer p input) := by
  have hfeed : feedAll (callAs framer) init (s.calls ++ [(p, input)]) =
      ((framer s.framer input).1, (feedAll (callAs framer) init s.calls).2 ++
        (framer s.framer input).2.map (p, ·)) := by
    rw [feedAll_append, feedAll_cons, feedAll_nil, ← h.state, List.append_nil]
    rfl
  refine ⟨?_, hevents, ?_⟩
  · show (framer s.framer input).1 = (feedAll (callAs framer) init (s.calls ++ [(p, input)])).1
    rw [hfeed]
  · intro q
    show ofPublisher q s.framings ++
        framingsOf (Function.update s.outboxes p (framer s.framer input).2 q) =
      framingsOf (ofPublisher q (feedAll (callAs framer) init (s.calls ++ [(p, input)])).2)
    rw [hfeed, ofPublisher_append, framingsOf_append, ← h.frames q]
    by_cases hq : p = q
    · subst hq
      rw [Function.update_self, hempty, ofPublisher_self, show framingsOf ([] : List (Emit κ ρ)) = []
        from rfl, List.append_nil]
    · rw [Function.update_of_ne (Ne.symm hq), ofPublisher_of_ne hq,
        show framingsOf ([] : List (Emit κ ρ)) = [] from rfl, List.append_nil]

theorem extracted_step {init : φ} (h : Extracted framer init s) (hs : step framer s a = some t) :
    Extracted framer init t := by
  rcases step_cases hs with ⟨event, -, rfl⟩ | ⟨event, -, hempty, hnext, rfl⟩ | ⟨-, hnext, rfl⟩ |
    ⟨n, input, -, hempty, rfl⟩ | ⟨p, f, rest, -, hbox, rfl⟩ | ⟨p, e, rest, -, hbox, rfl⟩ |
    ⟨i, _, -, rfl, rfl⟩
  · exact ⟨h.state, h.events, h.frames⟩
  · refine h.call hempty ?_
    rw [ofPublisher_append, h.events, Subscriber.got_recv, hnext, List.map_append]
    rfl
  · refine ⟨h.state, ?_, h.frames⟩
    show _ = (s.dataTask.recv dataCapacity s.events).got.map _
    rw [Subscriber.got_recv, hnext, Option.toList_none, List.append_nil]
    exact h.events
  · refine h.call hempty ?_
    rw [ofPublisher_append, h.events]
    exact List.append_nil _
  · refine ⟨h.state, h.events, ?_⟩
    intro q
    show ofPublisher q (s.framings ++ [(p, f)]) ++ framingsOf (Function.update s.outboxes p rest q) = _
    rw [← h.frames q, ofPublisher_append]
    by_cases hq : p = q
    · subst hq
      rw [Function.update_self, hbox, List.append_assoc]
      exact congrArg (fun l => ofPublisher p s.framings ++ (l ++ framingsOf rest))
        (ofPublisher_self p [f])
    · rw [Function.update_of_ne (Ne.symm hq)]
      exact congrArg (· ++ framingsOf (s.outboxes q)) ((congrArg _ (ofPublisher_of_ne hq [f])).trans
        (List.append_nil _))
  · refine ⟨h.state, h.events, ?_⟩
    intro q
    show ofPublisher q s.framings ++ framingsOf (Function.update s.outboxes p rest q) = _
    rw [← h.frames q]
    by_cases hq : p = q
    · subst hq
      rw [Function.update_self, hbox]
      rfl
    · rw [Function.update_of_ne (Ne.symm hq)]
  · exact ⟨h.state, h.events, h.frames⟩

theorem intact_step (h : AllKept s) (room : HasRoom s a) (hs : step framer s a = some t) :
    AllKept t := by
  obtain ⟨hdata, hframing⟩ := h
  rcases step_cases hs with ⟨event, rfl, rfl⟩ | ⟨event, -, -, -, rfl⟩ | ⟨-, -, rfl⟩ |
    ⟨n, input, -, -, rfl⟩ | ⟨p, f, rest, rfl, hbox, rfl⟩ | ⟨p, e, rest, -, -, rfl⟩ |
    ⟨i, _, -, rfl, rfl⟩
  · exact ⟨Subscriber.intact_send event hdata room, hframing⟩
  · exact ⟨Subscriber.intact_recv hdata, hframing⟩
  · exact ⟨Subscriber.intact_recv hdata, hframing⟩
  · exact ⟨hdata, hframing⟩
  · simp only [HasRoom, hbox] at room
    exact ⟨hdata, fun j => Subscriber.intact_send (p, f) (hframing j) (room j)⟩
  · exact ⟨hdata, hframing⟩
  · exact ⟨hdata, forall_update_recv hframing (Subscriber.intact_recv (hframing i))⟩

theorem lost_of_full (h : AllKept s) (full : ¬ HasRoom s a) (hs : step framer s a = some t) :
    SomeLost t := by
  obtain ⟨hdata, hframing⟩ := h
  rcases step_cases hs with ⟨event, rfl, rfl⟩ | ⟨event, rfl, -, -, -⟩ | ⟨rfl, -, -⟩ |
    ⟨n, input, rfl, -, -⟩ | ⟨p, f, rest, rfl, hbox, rfl⟩ | ⟨p, e, rest, rfl, hbox, -⟩ |
    ⟨i, _, rfl, -, -⟩
  · exact .inl (Subscriber.overrun_of_full event hdata full)
  · exact absurd trivial full
  · exact absurd trivial full
  · exact absurd trivial full
  · simp only [HasRoom, hbox, not_forall] at full
    obtain ⟨i, hi⟩ := full
    exact .inr ⟨i, Subscriber.overrun_of_full (p, f) (hframing i) hi⟩
  · simp only [HasRoom, hbox, not_true_eq_false] at full
  · exact absurd trivial full

theorem lost_step (h : SomeLost s) (hs : step framer s a = some t) : SomeLost t := by
  rcases step_cases hs with ⟨event, -, rfl⟩ | ⟨event, -, -, -, rfl⟩ | ⟨-, -, rfl⟩ |
    ⟨n, input, -, -, rfl⟩ | ⟨p, f, rest, -, -, rfl⟩ | ⟨p, e, rest, -, -, rfl⟩ | ⟨i, _, -, rfl, rfl⟩
  · exact h.imp_left (Subscriber.overrun_send event)
  · exact h.imp_left Subscriber.overrun_recv
  · exact h.imp_left Subscriber.overrun_recv
  · exact h
  · exact h.imp_right fun ⟨j, hj⟩ => ⟨j, Subscriber.overrun_send (p, f) hj⟩
  · exact h
  · refine h.imp_right fun ⟨j, hj⟩ => ⟨j, ?_⟩
    by_cases hji : j = i
    · subst hji
      simp only [Function.update_self]
      exact Subscriber.overrun_recv hj
    · simp only [Function.update_of_ne hji]
      exact hj

end Steps

/-! ## Runs -/

theorem lost_of_not_meets {s t : Channels φ ι κ ρ} {as : List (Label ι κ ρ)} (h : AllKept s)
    (hmeets : ¬ Meets (step framer) HasRoom s as) (run : exec (step framer) s as = some t) :
    SomeLost t := by
  induction as generalizing s with
  | nil => exact absurd trivial hmeets
  | cons a as ih =>
    obtain ⟨u, hu, hrest⟩ := exec_cons_eq_some run
    by_cases hroom : HasRoom s a
    · refine ih (intact_step h hroom hu) (fun hm => hmeets ⟨hroom, ?_⟩) hrest
      intro v hv
      rw [hu] at hv
      cases hv
      exact hm
    · exact exec_invariant' (P := SomeLost) (fun _ _ _ hp hs => lost_step hp hs) hrest
        (lost_of_full h hroom hu)

/-- **Delivery.** In every run receivers receive in order and nothing twice, and each publisher sends
the frames of its calls in order. In a run whose sends all find room, every event and every frame sent
so far was received in order or is still kept for its receiver. A run after which every receiver has
read to the end of its channel has delivered everything exactly once if and only if its sends all found
room. -/
theorem delivery (framer : Framer φ κ ρ) (init : φ) (as : List (Label ι κ ρ)) (s : Channels φ ι κ ρ)
    (run : exec (step framer) { framer := init } as = some s) :
    AllOrdered s ∧ Extracted framer init s ∧
      (Meets (step framer) HasRoom { framer := init } as → AllKept s) ∧
      (CaughtUp s → (AllReceived s ↔ Meets (step framer) HasRoom { framer := init } as)) := by
  have hinit : AllKept ({ framer := init } : Channels φ ι κ ρ) :=
    ⟨Subscriber.intact_init _, fun _ => Subscriber.intact_init _⟩
  have hkept : Meets (step framer) HasRoom { framer := init } as → AllKept s := fun hmeets =>
    exec_invariant (fun _ _ _ hp hroom hs => intact_step hp hroom hs) run hmeets hinit
  refine ⟨?_, ?_, hkept, fun hdone => ⟨?_, ?_⟩⟩
  · exact exec_invariant' (P := AllOrdered) (fun _ _ _ hp hs => ordered_step hp hs) run
      ⟨Subscriber.ordered_init, fun _ => Subscriber.ordered_init⟩
  · exact exec_invariant' (P := Extracted framer init) (fun _ _ _ hp hs => extracted_step hp hs) run
      ⟨rfl, rfl, fun _ => rfl⟩
  · intro hall
    by_contra hmeets
    rcases lost_of_not_meets hinit hmeets run with hlost | ⟨i, hlost⟩
    · exact hlost.got_ne hdone.1 hall.1
    · exact hlost.got_ne (hdone.2 i) (hall.2 i)
  · intro hmeets
    obtain ⟨hdata, hframing⟩ := hkept hmeets
    exact ⟨hdata.got_eq hdone.1, fun i => (hframing i).got_eq (hdone.2 i)⟩

/-- Two connections of a Serial layer: the request of the first arrives in two parts, that of the second
in between. Both timers run before either request is sent, and the second's task sends first. -/
def twoTimers : List (Label Unit Bool Unit) :=
  [.publish ⟨[1, 0x11, 0xC0], (), true⟩, .receiveData, .publish ⟨[2, 0x11, 0xC0, 0xDC], (), false⟩,
    .publish ⟨[0x2C], (), true⟩, .receiveData, .receiveData, .react 2 (.timer 2), .react 1 (.timer 1),
    .send (.task 1), .receiveFraming (), .send (.task 2), .receiveFraming ()]

theorem delivery_two_timers :
    ∃ s, exec (step (Rtu.step (.new .serial (2, 0) (some .slave)))) { framer := {} } twoTimers =
        some s ∧
      AllReceived s ∧ s.framings.map (·.2.connection) = [false, true] ∧
      Meets (step (Rtu.step (.new .serial (2, 0) (some .slave)))) HasRoom { framer := {} }
        twoTimers := by
  have hrun : (exec (step (Rtu.step (.new .serial (2, 0) (some .slave)))) { framer := {} }
      twoTimers).any (fun s => decide ((s.dataTask.CaughtUp s.events ∧
        (s.framingTasks ()).CaughtUp s.framings) ∧ (s.dataTask.got = s.events ∧
        (s.framingTasks ()).got = s.framings) ∧
        s.framings.map (·.2.connection) = [false, true])) = true := by
    decide +kernel
  obtain ⟨s, hs, hprop⟩ := (Option.any_eq_true _ _).mp hrun
  obtain ⟨⟨hdata, hframing⟩, ⟨hevents, hframes⟩, horder⟩ := of_decide_eq_true hprop
  have hall : AllReceived s := ⟨hevents, fun _ => hframes⟩
  have hdone := (delivery _ _ twoTimers s hs).2.2.2 ⟨hdata, fun _ => hframing⟩
  exact ⟨s, hs, hall, horder, hdone.mp hall⟩

/-! ## A burst that is lost -/

/-- FC 3 requests to unit 1, one for each of `n` addresses. -/
def requests (n : Nat) : List Bytes :=
  (List.range n).map fun i => Rtu.encode ⟨none, 1, 3, [0, UInt8.ofNat i, 0, 2]⟩

/-- 80 requests in one chunk of 640 bytes; the framer sends all of them before the framing task
runs, and then the framing task reads to the end. -/
def burst : List (Label Unit Unit Unit) :=
  [.publish ⟨(requests 80).flatten, (), ()⟩, .receiveData] ++ List.replicate 80 (.send .dataTask) ++
    List.replicate 65 (.receiveFraming ())

/-- The data unit of request `i`, and the framing that is published for it. -/
def requestAdu (i : Nat) : ApplicationDataUnit := ⟨none, 1, 3, [0, UInt8.ofNat i, 0, 2]⟩

def requestFraming (i : Nat) : Framing Unit Unit := ⟨requestAdu i, Rtu.encode (requestAdu i), (), ()⟩

theorem processDataEvent_requests (n : Nat) :
    (Rtu.processDataEvent (.new .net (0, 0) (some .slave)) {} ⟨(requests n).flatten, (), ()⟩).2 =
      ((List.range n).map requestFraming).map .framing := by
  have hfits : ∀ adu ∈ (List.range n).map requestAdu, Fits .rtu false adu := by
    intro adu hadu
    obtain ⟨i, -, rfl⟩ := List.mem_map.mp hadu
    exact ⟨⟨show 4 ≤ 252 by decide, rfl⟩, by simp [requestAdu]⟩
  have hcut : [(requests n).flatten].flatten =
      (((List.range n).map requestAdu).map (encode .rtu {})).flatten := by
    rw [List.flatten_singleton, List.map_map]
    rfl
  have hpublishes : publishes .rtu {} .slave [(requests n).flatten] =
      framings .rtu {} ((List.range n).map requestAdu) := publishes_frames_rtu {} hfits hcut
  rw [framings, List.map_map] at hpublishes
  rw [List.map_map]
  exact (List.append_nil _).symm.trans hpublishes

/-- A publisher sends its frames one after the other. -/
theorem exec_send {p : Publisher} (fs : List (Framing κ ρ)) {s : Channels φ ι κ ρ}
    (houtbox : s.outboxes p = fs.map .framing) :
    exec (step framer) s (List.replicate fs.length (.send p)) =
      some { s with
        framings := s.framings ++ fs.map (p, ·), outboxes := Function.update s.outboxes p [] } := by
  induction fs generalizing s with
  | nil =>
    have hsame : Function.update s.outboxes p [] = s.outboxes :=
      (congrArg (Function.update s.outboxes p) houtbox.symm).trans (Function.update_eq_self ..)
    rw [List.map_nil, List.append_nil, hsame]
    rfl
  | cons f fs ih =>
    have hstep : step framer s (.send p) = some { s with
        framings := s.framings ++ [(p, f)]
        outboxes := Function.update s.outboxes p (fs.map .framing) } := by
      rw [step, houtbox]
      rfl
    rw [List.length_cons, List.replicate_succ, exec_cons, hstep, Option.bind_some,
      ih (Function.update_self ..)]
    simp only [List.append_assoc, List.map_cons, List.singleton_append, Function.update_idem]

/-- A framing task reads on. -/
theorem exec_receiveFraming (i : ι) (n : Nat) (s : Channels φ ι κ ρ) :
    exec (step framer) s (List.replicate n (.receiveFraming i)) =
      some { s with
        framingTasks := Function.update s.framingTasks i
          ((Subscriber.recv framingCapacity s.framings)^[n] (s.framingTasks i)) } := by
  induction n generalizing s with
  | zero =>
    rw [Function.iterate_zero, id, Function.update_eq_self]
    rfl
  | succ n ih =>
    have hstep : step framer s (.receiveFraming i) = some { s with
        framingTasks := Function.update s.framingTasks i
          ((s.framingTasks i).recv framingCapacity s.framings) } := rfl
    rw [List.replicate_succ, exec_cons, hstep, Option.bind_some, ih]
    dsimp only
    rw [Function.update_idem, Function.update_self, Function.iterate_succ_apply]

variable (framer) in
/-- A chunk of frames is published and framed, all frames are sent, and a framing task reads on. -/
theorem exec_chunk (i : ι) (n : Nat) {init : φ} {event : DataEvent κ ρ} {fs : List (Framing κ ρ)}
    (houtbox : (framer init (.layer (.data event))).2 = fs.map .framing) :
    exec (step framer) { framer := init } ([.publish event, .receiveData] ++
        List.replicate fs.length (.send .dataTask) ++ List.replicate n (.receiveFraming i)) =
      some { events := [event], dataTask := ⟨1, [event]⟩
             framer := (framer init (.layer (.data event))).1
             framings := fs.map (Publisher.dataTask, ·)
             framingTasks := Function.update (fun _ => {}) i
               ((Subscriber.recv framingCapacity (fs.map (Publisher.dataTask, ·)))^[n] {})
             calls := [(.dataTask, .layer (.data event))] } := by
  have hbegin : exec (step framer) { framer := init } [(.publish event : Label ι κ ρ), .receiveData] =
      some { events := [event], dataTask := ⟨1, [event]⟩
             framer := (framer init (.layer (.data event))).1
             outboxes := Function.update (fun _ => []) .dataTask (fs.map .framing)
             calls := [(.dataTask, .layer (.data event))] } := by
    rw [← houtbox]
    rfl
  have hsent : Function.update (Function.update (fun _ => []) Publisher.dataTask (fs.map .framing))
      .dataTask [] = fun _ => ([] : List (Emit κ ρ)) := by
    rw [Function.update_idem]
    exact Function.update_eq_self ..
  have hbox : Function.update (fun _ => []) Publisher.dataTask (fs.map .framing) .dataTask =
      fs.map (Emit.framing (κ := κ) (ρ := ρ)) := Function.update_self ..
  rw [exec_append, exec_append, hbegin, Option.bind_some, exec_send fs hbox, Option.bind_some,
    exec_receiveFraming]
  simp only [hsent, List.nil_append]

/-- The framing task of a slave on RTU over Net misses the first 16 of the 80 requests. -/
theorem overrun_loses_frames :
    ∃ s, exec (step (Rtu.step (.new .net (0, 0) (some .slave)))) { framer := {} } burst = some s ∧
      CaughtUp s ∧ ¬ AllReceived s ∧ s.framings.map (·.2.raw) = requests 80 ∧
      (s.framingTasks ()).got = s.framings.drop 16 := by
  have hlength : (((List.range 80).map requestFraming).map (Publisher.dataTask, ·)).length = 80 := by
    rw [List.length_map, List.length_map, List.length_range]
  have hraw : (((List.range 80).map requestFraming).map (Publisher.dataTask, ·)).map (·.2.raw) =
      requests 80 := by
    rw [List.map_map, List.map_map]
    rfl
  have hrun := exec_chunk (Rtu.step (.new .net (0, 0) (some .slave))) ()
    (framingCapacity + 1) (processDataEvent_requests 80)
  rw [List.length_map, List.length_range] at hrun
  -- nothing else about the frames matters
  generalize ((List.range 80).map requestFraming).map (Publisher.dataTask, ·) = fs
    at hlength hraw hrun
  have hlost : framingCapacity < fs.length := by
    rw [hlength]
    decide
  rw [Subscriber.iterate_recv_overrun hlost, hlength] at hrun
  refine ⟨_, hrun, ⟨rfl, fun _ => hlength.symm⟩, ?_, hraw, rfl⟩
  intro hall
  have hgot : (fs.drop 16).length = fs.length := congrArg List.length (hall.2 ())
  rw [List.length_drop, hlength] at hgot
  cases hgot

end RsModbus.Tasks
