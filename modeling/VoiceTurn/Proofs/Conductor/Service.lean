import Mathlib.Tactic.Lemma
import Mathlib.Tactic.SplitIfs
import VoiceTurn.Proofs.Conductor.Moves
import VoiceTurn.Proofs.Line.Progress
import VoiceTurn.Proofs.Topic.Routing

/-!
# A site over a link

A site that serves a link stands at every moment between its input and its output
(`Site.Serves`): of the events in what has been read, the first ones have been handled and the
others are in the inbox, and the lines that have been written are, with those of the commands at
hand, the lines of the commands that a machine on its own gives for the events that have been
handled. Reading, handling an event and sending a command each keep this balance; everything else
that a site does concerns its taps, or whose turn it is.
-/

namespace VoiceTurn

open Bus (Message)
open Conductor (Occasion)
open Line (Link messagesIn)

namespace Topic.Registry

/-- The event that a message reports, if `cueOf?` has a cue for its topic. -/
def eventOf? (r : Registry) (message : Message) : Option Event :=
  (r.cueOf? message.topic).map fun c => ⟨c, message.payload⟩

/-- The events in the whole lines of an input (`messagesIn`). -/
def eventsIn (r : Registry) (limit : Nat) (input : Bytes) : List Event :=
  (messagesIn limit input).filterMap r.eventOf?

/-- The line of a command, if `Line.write` has one. -/
def lineOf? (r : Registry) (c : Command) : Option Bytes :=
  (r.ofCommand? c.target c.action).bind fun topic => (Line.write topic c.payload).toOption

end Topic.Registry

namespace Conductor

/-! ## Lines of commands -/

/-- The `lineOf?` each command, without those that have none. -/
def linesOf (commands : List (Command × String)) : Bytes :=
  (commands.filterMap fun p => (Line.write p.2 p.1.payload).toOption).flatten

lemma linesOf_cons (p : Command × String) (commands : List (Command × String)) :
    linesOf (p :: commands) =
      ((Line.write p.2 p.1.payload).toOption).getD [] ++ linesOf commands :=
  Line.flatten_filterMap_cons _ p commands

lemma linesOf_append (commands commands' : List (Command × String)) :
    linesOf (commands ++ commands') = linesOf commands ++ linesOf commands' := by
  simp [linesOf]

lemma linesOf_addressed (w : Worker) (commands : List Command) :
    linesOf (w.addressed commands) = (commands.filterMap w.registry.lineOf?).flatten := by
  unfold linesOf Worker.addressed
  rw [List.filterMap_filterMap]
  congr 2
  funext c
  unfold Topic.Registry.lineOf?
  cases w.registry.ofCommand? c.target c.action <;> rfl

namespace Site

/-! ## The balance -/

/-- The events of `consumed` that have been handled are all but those in the inbox, and `output`
holds the lines of their commands but for those at hand. -/
def Balances (r : Topic.Registry) (m : Machine) (limit : Nat) (consumed output : Bytes) (s : Site) :
    Prop :=
  ∃ timed : List (Event × Nat),
    r.eventsIn limit consumed = timed.map Prod.fst ++ s.inbox.items ∧
    s.worker.settled = m.after (m.schedule (timed.map .ofTimed)) ∧
    output ++ linesOf s.worker.pending =
      linesOf (s.worker.addressed (m.commandLog (m.schedule (timed.map .ofTimed))))

/-- A site at work on a link whose reader has read `consumed`, while `arrived` waits to be read.
Nobody has told it to stop, the deadline lies ahead, and the worker is awake unless it has nothing
to do. As long as no event has been lost, input and output are in `Balances`. -/
structure Serves (r : Topic.Registry) (m : Machine) (limit : Nat) (consumed arrived : Bytes)
    (l : Link Receiver) (s : Site) : Prop where
  carrier : s.access.carrier = .link l
  link : l.HasRead limit consumed arrived
  routes : ∀ message, eventsOf (l.subscriptions.deliveries message) = (r.eventOf? message).toList
  registry : s.worker.registry = r
  atWork : s.worker.isStopped = false
  unstopped : s.isStopping = false
  unpaused : s.pausedUntil = none
  inboxOpen : s.inbox.isClosed = false
  nobodyWaits : s.inbox.waiting = []
  ahead : s.worker.machine.IsAhead s.now
  awake : s.IsAwake .worker ∨ (s.worker.job = .waiting ∧ s.inbox.items = [])
  balance : s.inbox.overflows = 0 → s.Balances r m limit consumed l.output

lemma eventsOf_flatMap {r : Topic.Registry} {t : Bus.Subscriptions Receiver}
    (h : ∀ message, eventsOf (t.deliveries message) = (r.eventOf? message).toList)
    (ms : List Message) : eventsOf (ms.flatMap t.deliveries) = ms.filterMap r.eventOf? := by
  induction ms with
  | nil => rfl
  | cons m ms ih =>
    have happend : eventsOf (t.deliveries m ++ ms.flatMap t.deliveries) =
        eventsOf (t.deliveries m) ++ eventsOf (ms.flatMap t.deliveries) := List.filterMap_append
    rw [List.flatMap_cons, happend, h, ih, List.filterMap_cons]
    cases r.eventOf? m <;> rfl

namespace Serves

variable {r : Topic.Registry} {m : Machine} {limit : Nat} {consumed arrived : Bytes}
  {l : Link Receiver} {s : Site}

/-! ## What a site does -/

lemma reschedule (h : s.Serves r m limit consumed arrived l) {ready yielded : List Part}
    (left : Nat) (taps : List Tap)
    (hawake : (Part.worker ∈ ready ∨ Part.worker ∈ yielded) ∨
      (s.worker.job = .waiting ∧ s.inbox.items = [])) :
    { s with ready, yielded, left, taps }.Serves r m limit consumed arrived l :=
  { h with awake := hawake }

/-- Without anything to read there is no `readStep?`. -/
lemma readStep?_eq_none (h : s.Serves r m limit consumed arrived l)
    (hlimit : limit + 1 < UInt64.size) : s.readStep? = none ↔ arrived = [] := by
  have hcan := h.link.canRead hlimit
  unfold readStep?
  rw [h.carrier, Option.map_eq_none_iff, Bus.Carrier.readArrived?, hcan]
  cases arrived <;> simp

/-- A `readStep?` moves the events of what has arrived into the inbox. -/
lemma readStep (h : s.Serves r m limit consumed arrived l) (hlimit : limit + 1 < UInt64.size)
    {s' : Site} (hstep : s.readStep? = some s') :
    ∃ l', s'.Serves r m limit (consumed ++ arrived) [] l' := by
  have hcan := h.link.canRead hlimit
  obtain ⟨hread, hsubscriptions, houtput, ms, hms, hdeliveries⟩ := h.link.readArrived hlimit
  unfold readStep? at hstep
  rw [h.carrier, Bus.Carrier.readArrived?, hcan] at hstep
  cases harrived : arrived.isEmpty with
  | true => simp [harrived] at hstep
  | false =>
    simp only [harrived, Bool.not_false, if_true, Option.map_some, Option.some.injEq] at hstep
    subst hstep
    refine ⟨l.readArrived.2, ?_⟩
    -- all that the deliveries change, but for taps, is the inbox and who is awake
    have hdelivered := delivered_deliverAll
      { s with access := { s.access with carrier := .link l.readArrived.2 } } l.readArrived.1
    generalize deliverAll _ l.readArrived.1 = s' at hdelivered ⊢
    rw [hdeliveries, eventsOf_flatMap h.routes] at hdelivered
    have hinbox : s'.inbox = s.inbox.offerAll (ms.filterMap r.eventOf?) := hdelivered.inbox
    have hworker : s'.worker = s.worker := hdelivered.worker
    obtain ⟨hopen, hwaiting, hle, hitems⟩ :=
      Inbox.offerAll_spec h.inboxOpen (ms.filterMap r.eventOf?)
    rw [← hinbox] at hopen hwaiting hle hitems
    constructor
    · rw [hdelivered.access]
    · exact hread
    · rw [hsubscriptions]
      exact h.routes
    · rw [hworker]
      exact h.registry
    · rw [hworker]
      exact h.atWork
    · exact hdelivered.isStopping.trans h.unstopped
    · exact hdelivered.pausedUntil.trans h.unpaused
    · exact hopen
    · exact hwaiting.trans h.nobodyWaits
    · rw [hworker, hdelivered.now]
      exact h.ahead
    · -- new events wake the worker, and without them nothing has changed for it
      by_cases hevents : ms.filterMap r.eventOf? = []
      · refine h.awake.imp (fun hawake => hdelivered.awake (.inl hawake)) fun hidle => ?_
        rw [hworker, hinbox, hevents]
        exact hidle
      · exact .inl (hdelivered.awake (.inr hevents))
    · intro hoverflows
      have hkept : s.inbox.overflows = 0 := by omega
      obtain ⟨timed, hheard, hsettled, hlines⟩ := h.balance hkept
      refine ⟨timed, ?_, ?_, ?_⟩
      · rw [hitems (by omega), Topic.Registry.eventsIn, hms, List.filterMap_append,
          ← List.append_assoc, ← hheard]
        rfl
      · rw [hworker]
        exact hsettled
      · rw [hworker, houtput]
        exact hlines

/-- A `Worker.handle` moves the commands of an event to those at hand. -/
lemma handleStep (h : s.Serves r m limit consumed arrived l) (hjob : s.worker.job = .waiting)
    (hawake : s.IsAwake .worker) {e : Event} {items : List Event}
    (hitems : s.inbox.items = e :: items) :
    ({ s with inbox := { s.inbox with items } }.spend.took (s.worker.handle e s.now)).Serves r m
      limit consumed arrived l := by
  obtain ⟨hsettled, hpending, hregistry, hatWork⟩ := Worker.handle_spec hjob e s.now
  constructor
  · exact h.carrier
  · exact h.link
  · exact h.routes
  · exact hregistry.trans h.registry
  · exact hatWork
  · exact h.unstopped
  · exact h.unpaused
  · exact h.inboxOpen
  · exact h.nobodyWaits
  · exact Worker.isAhead_handle h.ahead e
  · exact .inl hawake
  · intro hoverflows
    obtain ⟨timed, hheard, hbefore, hlines⟩ := h.balance hoverflows
    -- the schedule grows by the calls that the worker makes for this event
    have hschedule : m.schedule ((timed ++ [(e, s.now)]).map .ofTimed) =
        m.schedule (timed.map .ofTimed) ++ s.worker.settled.callsFor (.event e s.now) := by
      rw [List.map_append, Machine.schedule_append, ← hbefore, List.map_singleton,
        Machine.schedule_singleton]
      rfl
    refine ⟨timed ++ [(e, s.now)], ?_, ?_, ?_⟩
    · rw [hheard, hitems, List.map_append, List.append_assoc]
      rfl
    · rw [hschedule, Machine.after_append, ← hbefore]
      exact hsettled
    · rw [hschedule, Machine.commandLog_append, ← hbefore]
      rw [Worker.pending_of_waiting hjob] at hlines
      show l.output ++ linesOf (s.worker.handle e s.now).1.pending =
        linesOf ((s.worker.handle e s.now).1.addressed _)
      rw [hpending, Worker.addressed_eq hregistry, Worker.addressed_append, linesOf_append,
        ← hlines]
      simp [linesOf]

/-- On a link that keeps what is written, an `attempt` is the last one: what cannot be written is
not tried again. -/
lemma attempt_eq (h : s.Serves r m limit consumed arrived l) (message : Message) :
    s.attempt message =
      { s with
        access := { s.access with carrier := .link (l.publish message).2 }
        pausedUntil := none
        tried := 0 }.took (s.worker.sent (l.publish message).1) := by
  have hresult := (h.link.publish message).1
  generalize hpublish : l.publish message = published at hresult ⊢
  obtain ⟨result, l'⟩ := published
  simp only at hresult
  unfold attempt
  rw [h.carrier]
  simp only [Bus.Carrier.publish, hpublish]
  cases result with
  | ok => rfl
  | error f =>
    have hfinal : f.isPassing = false := by
      cases hwrite : Line.write message.topic message.payload with
      | ok line => rw [hwrite] at hresult; cases hresult
      | error f' =>
        rw [hwrite] at hresult
        cases hresult
        exact Line.isPassing_of_write hwrite
    simp only [Except.map, Bus.Retry.pauseAfter?_eq_none hfinal]

/-- An `attempt` writes the line of its command, if it has one. -/
lemma attemptStep (h : s.Serves r m limit consumed arrived l) {c : Command} {topic : String}
    {rest : List (Command × String)} {ending : Option Phase}
    (hjob : s.worker.job = .sending (c, topic) rest ending) (hawake : s.IsAwake .worker) :
    ∃ l', (s.attempt ⟨topic, c.payload, s.worker.qos⟩).Serves r m limit consumed arrived l' := by
  obtain ⟨-, hlink, hsubscriptions, houtput⟩ := h.link.publish ⟨topic, c.payload, s.worker.qos⟩
  rw [h.attempt_eq]
  generalize l.publish ⟨topic, c.payload, s.worker.qos⟩ = published
    at hlink hsubscriptions houtput ⊢
  obtain ⟨result, l'⟩ := published
  obtain ⟨hsettled, hpending, hregistry, hatWork⟩ := Worker.sent_spec hjob result
  refine ⟨l', ?_⟩
  constructor
  · rfl
  · exact hlink
  · rw [hsubscriptions]
    exact h.routes
  · exact hregistry.trans h.registry
  · exact hatWork
  · exact h.unstopped
  · rfl
  · exact h.inboxOpen
  · exact h.nobodyWaits
  · exact Worker.isAhead_sent hjob result h.ahead
  · exact .inl hawake
  · intro hoverflows
    obtain ⟨timed, hheard, hbefore, hlines⟩ := h.balance hoverflows
    refine ⟨timed, hheard, hsettled.trans hbefore, ?_⟩
    -- the line of the command goes over from those at hand to the output
    have hline : linesOf s.worker.pending =
        (Line.lineOf? ⟨topic, c.payload, s.worker.qos⟩).getD [] ++ linesOf rest := by
      rw [Worker.pending, hjob]
      exact linesOf_cons (c, topic) rest
    show l'.output ++ linesOf (s.worker.sent result).1.pending =
      linesOf ((s.worker.sent result).1.addressed _)
    rw [hpending, Worker.addressed_eq hregistry, houtput, List.append_assoc, ← hline]
    exact hlines

/-- Everything that `workStep?` can do: handle the next event, send the next command, or nothing. -/
lemma workStep_cases (h : s.Serves r m limit consumed arrived l) :
    (∃ e items, s.worker.job = .waiting ∧ s.inbox.items = e :: items ∧ s.workStep? =
      some ({ s with inbox := { s.inbox with items } }.spend.took (s.worker.handle e s.now))) ∨
    (∃ c topic rest ending, s.worker.job = .sending (c, topic) rest ending ∧
      s.workStep? = some (s.attempt ⟨topic, c.payload, s.worker.qos⟩)) ∨
    (s.worker.job = .waiting ∧ s.inbox.items = [] ∧ s.workStep? = none) := by
  cases hjob : s.worker.job with
  | stopped =>
    have hatWork := h.atWork
    rw [Worker.isStopped, hjob] at hatWork
    cases hatWork
  | sending next rest ending =>
    refine .inr (.inl ⟨next.1, next.2, rest, ending, rfl, ?_⟩)
    have hmessage : s.worker.message? = some ⟨next.2, next.1.payload, s.worker.qos⟩ := by
      simp only [Worker.message?, hjob]
    simp only [workStep?, hjob, h.unpaused, hmessage]
  | waiting =>
    have hlook : s.workStep? = s.lookStep? := by simp only [workStep?, hjob]
    have hexpire : s.worker.expire? s.now = none := by
      rw [Worker.expire?, Machine.expire_of_isAhead h.ahead]
      rfl
    cases hitems : s.inbox.items with
    | nil =>
      refine .inr (.inr ⟨rfl, rfl, ?_⟩)
      rw [hlook, lookStep?, h.unstopped]
      simp [Inbox.take?, hitems, hexpire]
    | cons e items =>
      refine .inl ⟨e, items, rfl, rfl, ?_⟩
      rw [hlook, lookStep?, h.unstopped]
      simp [Inbox.take?, hitems, h.nobodyWaits]

/-- Every `step?` of a site at work is a `Move`. -/
lemma move_of_step? (h : s.Serves r m limit consumed arrived l) {s' : Site}
    (hstep : s.step? = some s') : s.Move s' := by
  cases steps_of_step? hstep with
  | read hread => exact .read hread
  | giveWay hready hleft => exact .giveWay hready hleft
  | @goOn p ps _ hready hpart =>
    cases p with
    | worker =>
      have hwork : s.workStep? = some s' := hpart
      have hawake : s.IsAwake .worker := .inl (by rw [hready]; exact List.mem_cons_self)
      rcases h.workStep_cases with ⟨e, items, hjob, hitems, heq⟩ |
        ⟨c, topic, rest, ending, hjob, heq⟩ | ⟨hjob, hitems, heq⟩
      · obtain rfl := Option.some.inj (hwork.symm.trans heq)
        exact .handle hawake hjob hitems
      · obtain rfl := Option.some.inj (hwork.symm.trans heq)
        exact .send hawake hjob
      · cases hwork.symm.trans heq
    | tap index =>
      obtain ⟨t, htap, t', htap', rfl⟩ := tapStep?_eq_some hpart
      exact .record htap htap'
  | rest hready hpart =>
    refine .rest hready ?_
    rintro rfl
    have hwork : s.workStep? = none := hpart
    rcases h.workStep_cases with ⟨_, _, -, -, heq⟩ | ⟨_, _, _, _, -, heq⟩ | ⟨hjob, hitems, -⟩
    · cases hwork.symm.trans heq
    · cases hwork.symm.trans heq
    · exact ⟨hjob, hitems⟩

/-- A site that makes a `Move` goes on serving the link, and its `backlog` gets less. -/
lemma move (h : s.Serves r m limit consumed arrived l) (hlimit : limit + 1 < UInt64.size)
    {s' : Site} (hmove : s.Move s') :
    ∃ consumed' arrived' l', consumed' ++ arrived' = consumed ++ arrived ∧
      s'.Serves r m limit consumed' arrived' l' ∧ s'.backlog arrived' < s.backlog arrived := by
  -- a part that is not the worker may leave the queue of those that are awake
  have hawake {p : Part} {ps : List Part} (hready : s.ready = p :: ps) (hp : p ≠ .worker) :
      (Part.worker ∈ ps ∨ Part.worker ∈ s.yielded) ∨
        (s.worker.job = .waiting ∧ s.inbox.items = []) := by
    refine h.awake.imp_left (Or.imp_left fun hworker => ?_)
    rw [hready] at hworker
    exact (List.mem_cons.1 hworker).resolve_left fun heq => hp heq.symm
  cases hmove with
  | read hread =>
    obtain ⟨l', h'⟩ := h.readStep hlimit hread
    have harrived : arrived ≠ [] := by
      intro hnil
      rw [(h.readStep?_eq_none hlimit).2 hnil] at hread
      cases hread
    exact ⟨_, _, l', List.append_nil _, h', backlog_read harrived⟩
  | handle hawake hjob hitems =>
    exact ⟨_, _, l, rfl, h.handleStep hjob hawake hitems, backlog_handle hitems _⟩
  | send hawake hjob =>
    obtain ⟨l', h'⟩ := h.attemptStep hjob hawake
    refine ⟨_, _, l', rfl, h', ?_⟩
    rw [h.attempt_eq]
    exact backlog_sent hjob _ _ _ _
  | record htap hstep =>
    exact ⟨_, _, l, rfl, h.reschedule _ _ h.awake, backlog_record htap hstep⟩
  | @rest p ps hready hidle =>
    refine ⟨_, _, l, rfl, h.reschedule share s.taps ?_, backlog_rest hready share⟩
    by_cases hp : p = .worker
    · exact .inr (hidle hp)
    · exact hawake hready hp
  | @giveWay p ps hready hleft =>
    refine ⟨_, _, l, rfl, h.reschedule share s.taps ?_, backlog_giveWay hready hleft⟩
    by_cases hp : p = .worker
    · exact .inl (.inr (List.mem_append_right _ (by simp [hp])))
    · exact (hawake hready hp).imp_left (Or.imp_right (List.mem_append_left _))
  | nextRound hyielded =>
    refine ⟨_, _, l, rfl, h.reschedule s.left s.taps ?_, backlog_nextRound hyielded⟩
    exact h.awake.imp_left fun hworker => .inl (List.mem_append.2 hworker)

/-- A site with neither `step?` nor `nextRound?` has read everything and sent every command. -/
lemma settled (h : s.Serves r m limit consumed arrived l) (hlimit : limit + 1 < UInt64.size)
    (hstep : s.step? = none) (hround : s.nextRound? = none) :
    arrived = [] ∧ s.worker.job = .waiting ∧ s.inbox.items = [] := by
  obtain ⟨hread, hready⟩ := step?_eq_none_iff.1 hstep
  refine ⟨(h.readStep?_eq_none hlimit).1 hread, h.awake.resolve_left ?_⟩
  rw [IsAwake, hready, nextRound?_eq_none_iff.1 hround]
  simp

/-- At the end the output is `linesOf` the commands for the events in the input. -/
lemma output_of_settled (h : s.Serves r m limit consumed arrived l)
    (hlimit : limit + 1 < UInt64.size) (hstep : s.step? = none) (hround : s.nextRound? = none)
    (hoverflows : s.inbox.overflows = 0) {timed : List (Event × Nat)}
    (htimed : timed.map Prod.fst = r.eventsIn limit (consumed ++ arrived)) :
    l.output =
      ((m.commandLog (m.schedule (timed.map .ofTimed))).filterMap r.lineOf?).flatten := by
  obtain ⟨rfl, hjob, hitems⟩ := h.settled hlimit hstep hround
  obtain ⟨handled, hheard, -, hlines⟩ := h.balance hoverflows
  rw [List.append_nil, hheard, hitems, List.append_nil] at htimed
  rw [Worker.pending_of_waiting hjob, linesOf_addressed, h.registry,
    ← m.commandLog_of_events htimed] at hlines
  simpa [linesOf] using hlines

end Serves

end Site

end Conductor

end VoiceTurn
