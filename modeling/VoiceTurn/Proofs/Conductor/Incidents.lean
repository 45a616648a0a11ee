import Mathlib.Tactic.Lemma
import Mathlib.Tactic.SplitIfs
import VoiceTurn.Proofs.Conductor.Routes

/-!
# What happens at a site

A site is left to whatever comes: messages of the bus, senders that enter events past the bus, the
clock, and its own parts, in any order (`Site.Happens`). What happens is written down as a list of
incidents, and `Site.Works` says once everything that a step of the worker can do. However the parts
take turns, a worker that can go on is never left asleep (`Site.Reaches.isAlert`).
-/

namespace VoiceTurn.Conductor

open Bus (Access Carrier Delivery Failure Message)

/-- What can be written down about a site. -/
inductive Incident where
  /-- A message of the bus has come to the inbox as an event, with so many places `free`. -/
  | delivered (m : Message) (e : Event) (free : Nat)
  /-- A sender has entered an event by `Inbox.send` or in a place of its own. -/
  | entered (e : Event)
  /-- The worker has turned to an event, or to the deadline if there is none, with this
  `Outcome`. -/
  | roused (now : Nat) (e : Option Event) (o : Outcome)
  /-- The last attempt to send a command has been made, with this `result`. -/
  | sent (now : Nat) (c : Command) (topic : String) (result : Except Failure Unit)
  | noted (n : Notice)

namespace Inbox

/-- How many items could enter at once: a place that has been granted counts as taken, also before
its sender takes it. -/
def free {α : Type} (b : Inbox α) : Nat := b.capacity - (b.items.length + b.granted.length)

def incidentsOf (b : Inbox Event) : List (Delivery Receiver) → List Incident
  | [] => []
  | d :: ds =>
    match d.receiver with
    | .inbox cue =>
      (if b.isClosed then [] else [.delivered d.message ⟨cue, d.message.payload⟩ b.free]) ++
        incidentsOf (b.offer ⟨cue, d.message.payload⟩) ds
    | .tap .. => incidentsOf b ds

/-- Nothing comes of deliveries but `delivered`. -/
lemma exists_of_mem_incidentsOf {b : Inbox Event} {ds : List (Delivery Receiver)} {i : Incident}
    (hi : i ∈ b.incidentsOf ds) : ∃ m e free, i = .delivered m e free := by
  induction ds generalizing b with
  | nil => cases hi
  | cons d ds ih =>
    unfold incidentsOf at hi
    split at hi
    · rcases List.mem_append.1 hi with hi | hi
      · split_ifs at hi
        · cases hi
        · exact ⟨_, _, _, List.mem_singleton.1 hi⟩
      · exact ih hi
    · exact ih hi

/-- Reading off what `delivered` does not tell. -/
lemma filterMap_incidentsOf {α : Type} {f : Incident → Option α}
    (hf : ∀ m e free, f (.delivered m e free) = none) (b : Inbox Event)
    (ds : List (Delivery Receiver)) : (b.incidentsOf ds).filterMap f = [] := by
  rw [List.filterMap_eq_nil_iff]
  intro i hi
  obtain ⟨m, e, free, rfl⟩ := exists_of_mem_incidentsOf hi
  exact hf m e free

end Inbox

namespace Incident

/-- Whether the incident is a `delivered` or an `entered`. -/
def isArrival : Incident → Bool
  | delivered .. | entered _ => true
  | roused .. | sent .. | noted _ => false

lemma filterMap_of_isArrival {α : Type} {f : Incident → Option α}
    (hdelivered : ∀ m e free, f (.delivered m e free) = none)
    (hentered : ∀ e, f (.entered e) = none) {log : List Incident}
    (h : ∀ i ∈ log, i.isArrival = true) : log.filterMap f = [] := by
  rw [List.filterMap_eq_nil_iff]
  intro i hi
  have harrival := h i hi
  cases i with
  | delivered m e free => exact hdelivered m e free
  | entered e => exact hentered e
  | roused | sent | noted => cases harrival

/-- Reading off what `noted` does not tell. -/
lemma filterMap_map_noted {α : Type} {f : Incident → Option α} (hf : ∀ n, f (.noted n) = none)
    (notices : List Notice) : (notices.map noted).filterMap f = [] := by
  rw [List.filterMap_map, List.filterMap_eq_nil_iff]
  exact fun n _ => hf n

lemma eq_or_noted_of_mem {i j : Incident} {notices : List Notice}
    (h : j ∈ i :: notices.map noted) : j = i ∨ ∃ n ∈ notices, j = .noted n := by
  rcases List.mem_cons.1 h with heq | hmem
  · exact .inl heq
  · obtain ⟨n, hn, rfl⟩ := List.mem_map.1 hmem
    exact .inr ⟨n, hn, rfl⟩

end Incident

namespace Site

/-! ## Steps of the worker -/

/-- Everything that `workStep?` can do: stop, handle an event, abandon the session, send a command,
pause before it tries again, or give a command up. -/
inductive Works (s : Site) : List Incident → Site → Prop where
  | stop (hjob : s.worker.job = .waiting) (hordered : s.isStopping = true) :
    s.Works [] { s with worker := s.worker.stop, inbox := s.inbox.close }
  | handle {e : Event} {inbox : Inbox Event} (hjob : s.worker.job = .waiting)
      (hgoing : s.isStopping = false) (htake : s.inbox.take? = some (e, inbox)) :
    s.Works (.roused s.now (some e) (s.worker.machine.handle e s.now).1 ::
        (s.worker.handle e s.now).2.map .noted)
      ({ s with inbox }.spend.took (s.worker.handle e s.now))
  | expire {o : Outcome} {machine : Machine} (hjob : s.worker.job = .waiting)
      (hgoing : s.isStopping = false) (hitems : s.inbox.items = [])
      (hexpire : s.worker.machine.expire s.now = some (o, machine)) :
    s.Works (.roused s.now none o :: (s.worker.react o machine).2.map .noted)
      (s.spend.took (s.worker.react o machine))
  | send {c : Command} {topic : String} {rest : List (Command × String)} {ending : Option Phase}
      {ds : List (Delivery Receiver)} {carrier : Carrier Receiver} (left : Nat)
      (hjob : s.worker.job = .sending (c, topic) rest ending)
      (hpublish : s.access.carrier.publish ⟨topic, c.payload, s.worker.qos⟩ = (.ok ds, carrier)) :
    s.Works (s.inbox.incidentsOf ds ++
        .sent s.now c topic (.ok ()) :: (s.worker.sent (.ok ())).2.map .noted)
      ({ { s with
          access := { s.access with carrier }, pausedUntil := none, left }.deliverAll ds with
        tried := 0 }.took (s.worker.sent (.ok ())))
  | pause {c : Command} {topic : String} {rest : List (Command × String)} {ending : Option Phase}
      {f : Failure} {carrier : Carrier Receiver} (left pause : Nat)
      (hjob : s.worker.job = .sending (c, topic) rest ending)
      (hpublish : s.access.carrier.publish ⟨topic, c.payload, s.worker.qos⟩ = (.error f, carrier)) :
    s.Works [] { s with
      access := { s.access with carrier }, left
      tried := s.tried + 1, pausedUntil := some (s.now + pause) }
  | giveUp {c : Command} {topic : String} {rest : List (Command × String)} {ending : Option Phase}
      {f : Failure} {carrier : Carrier Receiver} (left : Nat)
      (hjob : s.worker.job = .sending (c, topic) rest ending)
      (hpublish : s.access.carrier.publish ⟨topic, c.payload, s.worker.qos⟩ = (.error f, carrier)) :
    s.Works (.sent s.now c topic (.error f) :: (s.worker.sent (.error f)).2.map .noted)
      ({ s with
        access := { s.access with carrier }, left
        pausedUntil := none, tried := 0 }.took (s.worker.sent (.error f)))

variable {s s' : Site}

/-- A `lookStep?` of a worker that waits is one of the `Works`. -/
lemma works_of_lookStep? (hjob : s.worker.job = .waiting) (hstep : s.lookStep? = some s') :
    ∃ log, s.Works log s' := by
  unfold lookStep? at hstep
  split_ifs at hstep with hordered
  · cases hstep
    exact ⟨_, .stop hjob hordered⟩
  · rw [Bool.not_eq_true] at hordered
    cases htake : s.inbox.take? with
    | some taken =>
      simp only [htake] at hstep
      cases hstep
      exact ⟨_, .handle hjob hordered htake⟩
    | none =>
      have hitems : s.inbox.items = [] := by
        unfold Inbox.take? at htake
        cases hitems : s.inbox.items with
        | nil => rfl
        | cons e items => cases hwaiting : s.inbox.waiting <;> simp [hitems, hwaiting] at htake
      simp only [htake, Worker.expire?, Option.map_map] at hstep
      obtain ⟨⟨o, machine⟩, hexpire, rfl⟩ := Option.map_eq_some_iff.1 hstep
      exact ⟨_, .expire hjob hordered hitems hexpire⟩

/-- An `attempt` to send a command is one of the `Works`. -/
lemma works_attempt {c : Command} {topic : String} {rest : List (Command × String)}
    {ending : Option Phase} (hjob : s.worker.job = .sending (c, topic) rest ending) (left : Nat) :
    ∃ log, s.Works log ({ s with left }.attempt ⟨topic, c.payload, s.worker.qos⟩) := by
  cases hpublish : s.access.carrier.publish ⟨topic, c.payload, s.worker.qos⟩ with
  | mk result carrier =>
    unfold attempt
    simp only [hpublish]
    cases result with
    | ok ds => exact ⟨_, .send left hjob hpublish⟩
    | error f =>
      simp only
      cases s.retry.pauseAfter? (s.tried + 1) f with
      | some pause => exact ⟨_, .pause left pause hjob hpublish⟩
      | none => exact ⟨_, .giveUp left hjob hpublish⟩

/-- Every `workStep?` is one of the `Works`. -/
lemma exists_works (hstep : s.workStep? = some s') : ∃ log, s.Works log s' := by
  unfold workStep? at hstep
  cases hjob : s.worker.job with
  | stopped => simp [hjob] at hstep
  | waiting =>
    simp only [hjob] at hstep
    exact works_of_lookStep? hjob hstep
  | sending next rest ending =>
    have hmessage : s.worker.message? = some ⟨next.2, next.1.payload, s.worker.qos⟩ := by
      simp only [Worker.message?, hjob]
    simp only [hjob, hmessage] at hstep
    cases hpaused : s.pausedUntil with
    | none =>
      simp only [hpaused] at hstep
      cases hstep
      exact works_attempt hjob s.left
    | some t =>
      simp only [hpaused] at hstep
      split_ifs at hstep
      cases hstep
      exact works_attempt hjob (s.left - 1)

/-- A worker has nothing to do when it has stopped, when it waits and `lookStep?` finds neither an
order nor an event nor a deadline that has come, or when it pauses. -/
lemma workStep?_eq_none_iff :
    s.workStep? = none ↔
      (s.worker.job = .waiting → s.isStopping = false ∧ s.inbox.items = [] ∧
        s.worker.machine.expire s.now = none) ∧
      (s.worker.pending ≠ [] → ∃ t, s.pausedUntil = some t ∧ s.now < t) := by
  unfold workStep? Worker.pending
  cases hjob : s.worker.job with
  | stopped => simp
  | waiting =>
    unfold lookStep? Inbox.take? Worker.expire?
    cases hordered : s.isStopping with
    | true => simp
    | false =>
      cases s.inbox.items with
      | nil => simp
      | cons e items => cases s.inbox.waiting <;> simp
  | sending next rest ending =>
    have hmessage : s.worker.message? = some ⟨next.2, next.1.payload, s.worker.qos⟩ := by
      simp only [Worker.message?, hjob]
    rw [hmessage]
    cases s.pausedUntil with
    | none => simp
    | some t => simp

/-- Whether `workStep?` is `none` hangs on the worker itself, the order to stop, the queue and the
clock. -/
lemma workStep?_eq_none_congr (h : s.workStep? = none) (hworker : s'.worker = s.worker)
    (hordered : s'.isStopping = s.isStopping) (hitems : s'.inbox.items = s.inbox.items)
    (hpaused : s'.pausedUntil = s.pausedUntil) (hnow : s'.now = s.now) : s'.workStep? = none := by
  rw [workStep?_eq_none_iff] at h ⊢
  rw [hworker, hordered, hitems, hpaused, hnow]
  exact h

/-! ## Runs -/

/-- What can happen at a site: a message comes, the worker goes on, a sender enters an event, lines
up or takes a place granted to it, the clock goes on, the worker is told to stop, the bus changes
otherwise, and it becomes another part's turn. -/
inductive Happens (s : Site) : List Incident → Site → Prop where
  | deliver (m : Message) :
    s.Happens (s.inbox.incidentsOf (s.access.carrier.subscriptions.deliveries m))
      (s.deliverAll (s.access.carrier.subscriptions.deliveries m))
  | work {log : List Incident} {s' : Site} (hstep : s.workStep? = some s')
      (hworks : s.Works log s') : s.Happens log s'
  | enter {e : Event} {inbox : Inbox Event} (hsend : s.inbox.send e = (.entered, inbox)) :
    s.Happens [.entered e] ({ s with inbox }.wake .worker)
  | lineUp {e : Event} {inbox : Inbox Event} (hsend : s.inbox.send e = (.waits, inbox)) :
    s.Happens [] { s with inbox }
  | takePlace {e : Event} {before after : List Event}
      (hgranted : s.inbox.granted = before ++ e :: after) :
    s.Happens [.entered e] ({ s with inbox := { s.inbox with
      items := s.inbox.items ++ [e], granted := before ++ after } }.wake .worker)
  | clock (t : Nat) (hforward : s.now ≤ t)
      (htimely : s.worker.job = .waiting → s.inbox.items = [] →
        ∀ d ∈ s.worker.machine.deadline?, t ≤ max d s.now) :
    s.Happens [] (s.setClock t)
  | order : s.Happens [] s.orderStop
  | bus (access : Access Receiver) (subscriptions : List Nat)
      (hroutes : s.inbox.isClosed = true ∨ ∀ m,
        eventsOf (access.carrier.subscriptions.deliveries m) =
          eventsOf (s.access.carrier.subscriptions.deliveries m)) :
    s.Happens [] { s with access, subscriptions }
  | turn (ready yielded : List Part) (left : Nat) (taps : List Tap)
      (hawake : s.workStep? = none ∨ Part.worker ∈ ready ∨ Part.worker ∈ yielded) :
    s.Happens [] { s with ready, yielded, left, taps }

/-- Whatever is not one of the `Works` leaves the worker alone, and consists of arrivals. -/
lemma Happens.works_or_idle {log : List Incident} (h : s.Happens log s') :
    s.Works log s' ∨
      (s'.worker = s.worker ∧ s'.feed = s.feed ∧ ∀ i ∈ log, i.isArrival = true) := by
  have hnothing : ∀ i ∈ ([] : List Incident), i.isArrival = true :=
    fun i hi => absurd hi List.not_mem_nil
  cases h with
  | deliver m =>
    have hdelivered := s.delivered_deliverAll (s.access.carrier.subscriptions.deliveries m)
    refine .inr ⟨hdelivered.worker, hdelivered.feed, fun i hi => ?_⟩
    obtain ⟨m', e, free, rfl⟩ := Inbox.exists_of_mem_incidentsOf hi
    rfl
  | work hstep hworks => exact .inl hworks
  | enter | takePlace =>
    refine .inr ⟨worker_wake _ _, feed_wake _ _, fun i hi => ?_⟩
    rw [List.mem_singleton.1 hi]
    rfl
  | clock t =>
    exact .inr ⟨worker_wake { s with now := t } _, feed_wake { s with now := t } _, hnothing⟩
  | order =>
    exact .inr ⟨worker_wake { s with isStopping := true } _,
      feed_wake { s with isStopping := true } _, hnothing⟩
  | lineUp | bus | turn => exact .inr ⟨rfl, rfl, hnothing⟩

/-- Where a site can be, with what has been written down on the way. -/
inductive Reaches (start : Site) : List Incident → Site → Prop where
  | start : Reaches start [] start
  | next {log more : List Incident} {s s' : Site} (h : Reaches start log s)
      (hnext : s.Happens more s') : Reaches start (log ++ more) s'

lemma Reaches.trans {start : Site} {log more : List Incident} (h : start.Reaches log s)
    (h' : s.Reaches more s') : start.Reaches (log ++ more) s' := by
  induction h' with
  | start => rwa [List.append_nil]
  | next _ hnext ih =>
    rw [← List.append_assoc]
    exact ih.next hnext

lemma Happens.reaches {log : List Incident} (h : s.Happens log s') : s.Reaches log s' :=
  Reaches.start.next h

/-- What everything that `Happens` preserves holds wherever a site `Reaches`. -/
lemma Reaches.induction {start : Site} {P : List Incident → Site → Prop} (hstart : P [] start)
    (hnext : ∀ {log more : List Incident} {s s' : Site}, P log s → s.Happens more s' →
      P (log ++ more) s') {log : List Incident} (h : start.Reaches log s) : P log s := by
  induction h with
  | start => exact hstart
  | next _ hhappens ih => exact hnext ih hhappens

/-! ## The worker is not forgotten -/

/-- The worker `IsAwake`, or has nothing to do. -/
def IsAlert (s : Site) : Prop := s.IsAwake .worker ∨ s.workStep? = none

lemma Works.isAwake {log : List Incident} (h : s.Works log s') (hawake : s.IsAwake .worker) :
    s'.IsAwake .worker := by
  cases h with
  | stop | handle | expire | pause | giveUp => exact hawake
  | @send c topic rest ending ds carrier left =>
    exact (delivered_deliverAll { s with
      access := { s.access with carrier }, pausedUntil := none, left } ds).awake (.inl hawake)

/-- Whatever `Happens` wakes the worker, unless there is nothing in it to do. -/
lemma Happens.isAlert {log : List Incident} (h : s.Happens log s') (halert : s.IsAlert) :
    s'.IsAlert := by
  cases h with
  | deliver m =>
    have hdelivered := s.delivered_deliverAll (s.access.carrier.subscriptions.deliveries m)
    generalize eventsOf (s.access.carrier.subscriptions.deliveries m) = events at hdelivered
    by_cases hevents : events = []
    · subst hevents
      refine halert.imp (fun hawake => hdelivered.awake (.inl hawake)) fun hnone => ?_
      exact workStep?_eq_none_congr hnone hdelivered.worker hdelivered.isStopping
        (congrArg Inbox.items hdelivered.inbox) hdelivered.pausedUntil hdelivered.now
    · exact .inl (hdelivered.awake (.inr hevents))
  | work hstep hworks =>
    refine .inl (hworks.isAwake (halert.resolve_right fun hnone => ?_))
    rw [hnone] at hstep
    cases hstep
  | enter | takePlace | clock | order => exact .inl (isAwake_wake _ _)
  | lineUp hsend =>
    rcases halert with hawake | hnone
    · exact .inl hawake
    · refine .inr (workStep?_eq_none_congr hnone rfl rfl ?_ rfl rfl)
      unfold Inbox.send at hsend
      split_ifs at hsend
      all_goals cases hsend
      rfl
  | bus =>
    rcases halert with hawake | hnone
    · exact .inl hawake
    · exact .inr (workStep?_eq_none_congr hnone rfl rfl rfl rfl rfl)
  | turn ready yielded left taps hawake =>
    rcases hawake with hnone | hawake
    · exact .inr (workStep?_eq_none_congr hnone rfl rfl rfl rfl rfl)
    · exact .inl hawake

lemma Reaches.isAlert {start : Site} {log : List Incident} (h : start.Reaches log s)
    (hstart : start.IsAlert) : s.IsAlert :=
  h.induction (P := fun _ s => s.IsAlert) hstart fun halert hhappens => hhappens.isAlert halert

/-- When neither `step?` nor `nextRound?` is left, the worker has nothing to do either. -/
lemma IsAlert.workStep?_eq_none (h : s.IsAlert) (hstep : s.step? = none)
    (hround : s.nextRound? = none) : s.workStep? = none := by
  refine h.resolve_left fun hawake => ?_
  rw [IsAwake, (step?_eq_none_iff.1 hstep).2, nextRound?_eq_none_iff.1 hround] at hawake
  simp at hawake

end Site

end VoiceTurn.Conductor
