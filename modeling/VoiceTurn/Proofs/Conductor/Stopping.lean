import VoiceTurn.Proofs.Conductor.Queueing
import VoiceTurn.Proofs.Conductor.Watchdog

/-!
# Stopping

A worker that has been told to stop deals with the commands at hand and turns to nothing else
(`Site.Reaches.windsDown`). Once it has stopped, its inbox is closed and nobody waits in front of it
(`Site.IsLatched`), and whatever happens from then on leaves the worker, the inbox and the feed as
they are (`Site.Reaches.rests`).
-/

namespace VoiceTurn.Conductor

/-! ## What has been turned to -/

namespace Incident

def outcome? : Incident → Option Outcome
  | roused _ _ o => some o
  | delivered .. | entered _ | sent .. | noted _ => none

lemma outcome?_of_unroused {i : Incident} (h : i.isRousing = false) : i.outcome? = none := by
  cases i with
  | roused => cases h
  | delivered | entered | sent | noted => rfl

lemma taken?_of_unroused {i : Incident} (h : i.isRousing = false) : i.taken? = none := by
  cases i with
  | roused => cases h
  | delivered | entered | sent | noted => rfl

/-- What `f` finds in a `roused` only is not there where the worker has turned to nothing. -/
lemma filterMap_of_unroused {α : Type} {f : Incident → Option α}
    (hf : ∀ {i : Incident}, i.isRousing = false → f i = none) {log : List Incident}
    (h : ∀ i ∈ log, i.isRousing = false) : log.filterMap f = [] :=
  List.filterMap_eq_nil_iff.2 fun i hi => hf (h i hi)

end Incident

/-- The commands of every `outcome?`, in order. -/
def commandsOf (log : List Incident) : List Command :=
  (log.filterMap Incident.outcome?).flatMap Outcome.commands

/-- The commands of every `sent?`, in order. -/
def commandsSent (log : List Incident) : List Command :=
  (log.filterMap Incident.sent?).map Prod.fst

section
variable {log more : List Incident}

lemma commandsOf_append_of_unroused (h : ∀ i ∈ more, i.isRousing = false) :
    commandsOf (log ++ more) = commandsOf log := by
  rw [commandsOf, List.filterMap_append,
    Incident.filterMap_of_unroused Incident.outcome?_of_unroused h, List.append_nil, commandsOf]

lemma commandsOf_append_roused (log : List Incident) (now : Nat) (e? : Option Event) (o : Outcome)
    (notices : List Notice) :
    commandsOf (log ++ .roused now e? o :: notices.map .noted) = commandsOf log ++ o.commands := by
  have houtcome : (Incident.roused now e? o).outcome? = some o := rfl
  rw [commandsOf, List.filterMap_append, List.filterMap_cons_some houtcome,
    Incident.filterMap_map_noted fun _ => rfl, List.flatMap_append, List.flatMap_singleton,
    commandsOf]

end

/-! ## Closed inboxes -/

namespace Inbox

variable {α : Type} {b : Inbox α}

lemma offerAll_of_isClosed (hclosed : b.isClosed = true) (items : List α) :
    b.offerAll items = b := by
  induction items with
  | nil => rfl
  | cons a items ih =>
    have hoffer : b.offer a = b := if_pos hclosed
    rw [offerAll, List.foldl_cons, hoffer]
    exact ih

lemma waiting_offerAll (b : Inbox α) (items : List α) :
    (b.offerAll items).waiting = b.waiting := by
  induction items generalizing b with
  | nil => rfl
  | cons a items ih =>
    rw [offerAll, List.foldl_cons]
    refine (ih _).trans ?_
    unfold offer
    split_ifs <;> rfl

lemma send_of_isClosed (hclosed : b.isClosed = true) (a : α) : b.send a = (.refused, b) :=
  if_pos hclosed

/-- Only an open inbox does not refuse a `send`. -/
lemma isOpen_of_send {b' : Inbox α} {a : α} {sending : Sending} (hsend : b.send a = (sending, b'))
    (haccepted : sending ≠ .refused) : b.isClosed = false := by
  refine Bool.eq_false_of_not_eq_true fun hclosed => haccepted ?_
  rw [send_of_isClosed hclosed] at hsend
  exact (congrArg Prod.fst hsend).symm

/-- What becomes of an inbox whose items are not taken any more: it may be closed, and until it is,
the senders in `waiting` stay in front of it. -/
structure Lingers (b b' : Inbox α) : Prop where
  closed : b.isClosed = true → b'.isClosed = true
  waiting : b'.isClosed = false → b.waiting <+: b'.waiting

namespace Lingers

lemma refl (b : Inbox α) : b.Lingers b := ⟨id, fun _ => List.prefix_rfl⟩

lemma trans {b b' b'' : Inbox α} (h : b.Lingers b') (h' : b'.Lingers b'') : b.Lingers b'' := by
  refine ⟨fun hclosed => h'.closed (h.closed hclosed), fun hopen => ?_⟩
  have hbefore : b'.isClosed = false := by
    refine Bool.eq_false_of_not_eq_true fun hclosed => ?_
    rw [h'.closed hclosed] at hopen
    cases hopen
  exact (h.waiting hbefore).trans (h'.waiting hopen)

lemma offerAll (b : Inbox α) (items : List α) : b.Lingers (b.offerAll items) := by
  refine ⟨fun hclosed => (b.isClosed_offerAll items).trans hclosed, fun _ => ?_⟩
  exact (b.waiting_offerAll items).symm ▸ List.prefix_rfl

/-- An item whose `send` does not enter it waits behind the others. -/
lemma send {b' : Inbox α} {a : α} {sending : Sending} (hsend : b.send a = (sending, b')) :
    b.Lingers b' := by
  refine ⟨fun hclosed => (isClosed_send hsend).trans hclosed, fun _ => ?_⟩
  unfold Inbox.send at hsend
  split_ifs at hsend <;> cases hsend
  · exact List.prefix_rfl
  · exact List.prefix_rfl
  · exact List.prefix_append _ _

end Lingers

end Inbox

lemma Worker.pending_of_isStopped {w : Worker} (h : w.isStopped = true) : w.pending = [] := by
  unfold isStopped at h
  unfold pending
  cases hjob : w.job with
  | stopped | waiting => rfl
  | sending => simp [hjob] at h

namespace Site

variable {s s' : Site} {log more : List Incident}

/-! ## The order to stop -/

lemma Works.isStopping (h : s.Works more s') : s'.isStopping = s.isStopping := by
  cases h with
  | @send c topic rest ending ds carrier left =>
    exact (delivered_deliverAll { s with
      access := { s.access with carrier }, pausedUntil := none, left } ds).isStopping
  | stop | handle | expire | pause | giveUp => rfl

lemma Happens.isStopping (h : s.Happens more s') (hordered : s.isStopping = true) :
    s'.isStopping = true := by
  cases h with
  | deliver m => exact (s.delivered_deliverAll _).isStopping.trans hordered
  | work hstep hworks => exact hworks.isStopping.trans hordered
  | enter | takePlace | clock => exact (isStopping_wake _ _).trans hordered
  | order => exact isStopping_wake _ _
  | lineUp | bus | turn => exact hordered

/-- A `roused` comes only before `orderStop` and with nothing `pending`, and the commands of its
outcome are at hand then. -/
lemma Happens.roused_or_unroused (h : s.Happens more s') :
    (s.isStopping = false ∧ s.worker.pending = [] ∧ ∃ e? o machine,
      more = .roused s.now e? o :: (s.worker.react o machine).2.map .noted ∧
      s'.worker = (s.worker.react o machine).1 ∧ ∀ c ∈ o.commands, c.HasSlot) ∨
    ∀ i ∈ more, i.isRousing = false := by
  -- neither what comes to a site nor what is noted is anything that the worker turns to
  have hnoted {i j : Incident} {notices : List Notice} (hi : i.isRousing = false)
      (hj : j ∈ i :: notices.map .noted) : j.isRousing = false := by
    rcases Incident.eq_or_noted_of_mem hj with rfl | ⟨n, -, rfl⟩
    · exact hi
    · rfl
  rcases h.works_or_idle with hworks | ⟨-, -, harrivals⟩
  · cases hworks with
    | stop | pause => exact .inr (List.forall_mem_nil _)
    | @handle e inbox hjob hgoing htake =>
      refine .inl ⟨hgoing, Worker.pending_of_waiting hjob, some e, _, _, rfl, rfl, fun c hc => ?_⟩
      have hcall : c ∈ (s.worker.machine.call (.handle e s.now)).1.commands := hc
      exact Machine.hasSlot_of_mem_call hcall
    | @expire o machine hjob hgoing hitems hexpire =>
      refine .inl ⟨hgoing, Worker.pending_of_waiting hjob, none, o, machine, rfl, rfl,
        fun c hc => ?_⟩
      have hcall : c ∈ (s.worker.machine.call (.expire s.now)).1.commands := by
        rwa [Machine.call_expire_some hexpire]
      exact Machine.hasSlot_of_mem_call hcall
    | send =>
      refine .inr fun i hi => ?_
      rcases List.mem_append.1 hi with hi | hi
      · obtain ⟨m, e, free, rfl⟩ := Inbox.exists_of_mem_incidentsOf hi
        rfl
      · exact hnoted rfl hi
    | giveUp => exact .inr fun i hi => hnoted rfl hi
  · refine .inr fun i hi => ?_
    have harrival := harrivals i hi
    cases i with
    | roused => cases harrival
    | delivered | entered | sent | noted => rfl

/-- After `orderStop` nothing that `Happens` is a `roused`. -/
lemma Happens.unroused (h : s.Happens more s') (hordered : s.isStopping = true) :
    ∀ i ∈ more, i.isRousing = false := by
  refine h.roused_or_unroused.resolve_left fun hroused => ?_
  rw [hordered] at hroused
  cases hroused.1

/-! ## Stopped workers -/

/-- A worker stops when it has been told to, and closes its inbox then. -/
structure IsLatched (s : Site) : Prop where
  ordered : s.worker.isStopped = true → s.isStopping = true
  closed : s.inbox.isClosed = s.worker.isStopped
  deserted : s.inbox.isClosed = true → s.inbox.waiting = [] ∧ s.inbox.granted = []

namespace IsLatched

lemma of_isOpen (hworker : s.worker.isStopped = false) (hopen : s.inbox.isClosed = false) :
    s.IsLatched := by
  refine ⟨fun h => ?_, hopen.trans hworker.symm, fun h => ?_⟩
  · rw [hworker] at h
    cases h
  · rw [hopen] at h
    cases h

lemma isOpen (h : s.IsLatched) (hworker : s.worker.isStopped = false) :
    s.inbox.isClosed = false := h.closed.trans hworker

lemma works (h : s.IsLatched) (hworks : s.Works more s') : s'.IsLatched := by
  have hwaiting (hjob : s.worker.job = .waiting) : s.worker.isStopped = false := by
    rw [Worker.isStopped, hjob]
  have hsending {next : Command × String} {rest : List (Command × String)}
      {ending : Option Phase} (hjob : s.worker.job = .sending next rest ending) :
      s.worker.isStopped = false := by
    rw [Worker.isStopped, hjob]
  cases hworks with
  | stop hjob hordered => exact ⟨fun _ => hordered, rfl, fun _ => ⟨rfl, rfl⟩⟩
  | handle hjob hgoing htake =>
    refine of_isOpen ?_ ((Inbox.isClosed_take htake).trans (h.isOpen (hwaiting hjob)))
    exact (s.worker.handle_spec hjob _ _).2.2.2
  | @expire o machine hjob =>
    refine of_isOpen ?_ (h.isOpen (hwaiting hjob))
    show (s.worker.react o machine).1.isStopped = false
    rw [Worker.react_eq, Worker.isStopped_proceed]
  | @send c topic rest ending ds carrier left hjob =>
    have hinbox := (delivered_deliverAll { s with
      access := { s.access with carrier }, pausedUntil := none, left } ds).inbox
    refine of_isOpen (Worker.sent_spec hjob (.ok ())).2.2.2 ?_
    refine (congrArg Inbox.isClosed hinbox).trans ?_
    exact (Inbox.isClosed_offerAll _ _).trans (h.isOpen (hsending hjob))
  | pause => exact ⟨h.ordered, h.closed, h.deserted⟩
  | giveUp left hjob =>
    exact of_isOpen (Worker.sent_spec hjob _).2.2.2 (h.isOpen (hsending hjob))

lemma isOpen_of_granted (h : s.IsLatched) {e : Event} {before after : List Event}
    (hgranted : s.inbox.granted = before ++ e :: after) : s.inbox.isClosed = false := by
  refine Bool.eq_false_of_not_eq_true fun hclosed => ?_
  rw [(h.deserted hclosed).2] at hgranted
  exact absurd hgranted.symm (List.append_ne_nil_of_right_ne_nil _ (List.cons_ne_nil _ _))

lemma happens (h : s.IsLatched) (hhappens : s.Happens more s') : s'.IsLatched := by
  have hopen (hinbox : s.inbox.isClosed = false) : s.worker.isStopped = false :=
    h.closed.symm.trans hinbox
  cases hhappens with
  | deliver m =>
    have hdelivered := s.delivered_deliverAll (s.access.carrier.subscriptions.deliveries m)
    refine ⟨?_, ?_, fun hclosed => ?_⟩
    · rw [hdelivered.worker, hdelivered.isStopping]
      exact h.ordered
    · rw [hdelivered.inbox, hdelivered.worker, Inbox.isClosed_offerAll]
      exact h.closed
    · rw [hdelivered.inbox, Inbox.isClosed_offerAll] at hclosed
      rw [hdelivered.inbox, Inbox.offerAll_of_isClosed hclosed]
      exact h.deserted hclosed
  | work hstep hworks => exact h.works hworks
  -- only an open inbox takes events or senders, and then the worker has not stopped
  | enter hsend =>
    have hinbox := Inbox.isOpen_of_send hsend nofun
    refine of_isOpen ?_ ?_
    · rw [worker_wake]
      exact hopen hinbox
    · rw [inbox_wake]
      exact (Inbox.isClosed_send hsend).trans hinbox
  | lineUp hsend =>
    have hinbox := Inbox.isOpen_of_send hsend nofun
    exact of_isOpen (hopen hinbox) ((Inbox.isClosed_send hsend).trans hinbox)
  | takePlace hgranted =>
    have hinbox := h.isOpen_of_granted hgranted
    refine of_isOpen ?_ ?_
    · rw [worker_wake]
      exact hopen hinbox
    · rwa [inbox_wake]
  | clock t =>
    rw [setClock]
    constructor
    · rw [worker_wake, isStopping_wake]
      exact h.ordered
    · rw [worker_wake, inbox_wake]
      exact h.closed
    · rw [inbox_wake]
      exact h.deserted
  | order =>
    rw [orderStop]
    constructor
    · rw [isStopping_wake]
      exact fun _ => rfl
    · rw [worker_wake, inbox_wake]
      exact h.closed
    · rw [inbox_wake]
      exact h.deserted
  | bus | turn => exact ⟨h.ordered, h.closed, h.deserted⟩

end IsLatched

lemma IsStart.isLatched {r : Topic.Registry} {settings : Settings} (h : s.IsStart r settings) :
    s.IsLatched := by
  refine .of_isOpen ?_ ?_
  · rw [h.worker]
    rfl
  · rw [h.inbox]
    rfl

lemma workStep?_of_isStopped (h : s.worker.isStopped = true) : s.workStep? = none := by
  unfold Worker.isStopped at h
  unfold workStep?
  cases hjob : s.worker.job with
  | stopped => rfl
  | waiting | sending => simp [hjob] at h

/-- What stays the same once the worker of a site `isStopped`. -/
structure Rests (s s' : Site) : Prop where
  worker : s'.worker = s.worker
  inbox : s'.inbox = s.inbox
  feed : s'.feed = s.feed

/-- Nothing comes of what `Happens` at a site whose worker has stopped. -/
lemma Happens.rests (h : s.Happens more s') (hlatched : s.IsLatched)
    (hstopped : s.worker.isStopped = true) : more = [] ∧ s.Rests s' := by
  have hclosed : s.inbox.isClosed = true := hlatched.closed.trans hstopped
  cases h with
  | deliver m =>
    have hdelivered := s.delivered_deliverAll (s.access.carrier.subscriptions.deliveries m)
    refine ⟨Inbox.incidentsOf_of_isClosed hclosed _, hdelivered.worker, ?_, hdelivered.feed⟩
    rw [hdelivered.inbox, Inbox.offerAll_of_isClosed hclosed]
  | work hstep =>
    rw [workStep?_of_isStopped hstopped] at hstep
    cases hstep
  | enter hsend | lineUp hsend =>
    have hopen := Inbox.isOpen_of_send hsend nofun
    rw [hclosed] at hopen
    cases hopen
  | takePlace hgranted =>
    have hopen := hlatched.isOpen_of_granted hgranted
    rw [hclosed] at hopen
    cases hopen
  | clock | order => exact ⟨rfl, worker_wake _ _, inbox_wake _ _, feed_wake _ _⟩
  | bus | turn => exact ⟨rfl, rfl, rfl, rfl⟩

lemma Reaches.rests (h : s.Reaches more s') (hlatched : s.IsLatched)
    (hstopped : s.worker.isStopped = true) : more = [] ∧ s.Rests s' ∧ s'.IsLatched := by
  induction h with
  | start => exact ⟨rfl, ⟨rfl, rfl, rfl⟩, hlatched⟩
  | next _ hhappens ih =>
    obtain ⟨rfl, hrests, hlatched'⟩ := ih
    obtain ⟨rfl, hrests'⟩ := hhappens.rests hlatched' (hrests.worker ▸ hstopped)
    exact ⟨rfl, ⟨hrests'.worker.trans hrests.worker, hrests'.inbox.trans hrests.inbox,
      hrests'.feed.trans hrests.feed⟩, hlatched'.happens hhappens⟩

/-! ## Winding down -/

lemma Happens.lingers (h : s.Happens more s') (hordered : s.isStopping = true) :
    s.inbox.Lingers s'.inbox := by
  cases h with
  | deliver m =>
    rw [(s.delivered_deliverAll _).inbox]
    exact .offerAll _ _
  | work hstep hworks =>
    cases hworks with
    | stop => exact ⟨fun _ => rfl, nofun⟩
    | handle hjob hgoing | expire hjob hgoing =>
      rw [hordered] at hgoing
      cases hgoing
    | @send c topic rest ending ds carrier left =>
      have hinbox := (delivered_deliverAll { s with
        access := { s.access with carrier }, pausedUntil := none, left } ds).inbox
      have hlingers := Inbox.Lingers.offerAll s.inbox (eventsOf ds)
      rw [← hinbox] at hlingers
      exact hlingers
    | pause | giveUp => exact .refl _
  | enter hsend =>
    rw [inbox_wake]
    exact .send hsend
  | lineUp hsend => exact .send hsend
  | takePlace =>
    rw [inbox_wake]
    exact ⟨id, fun _ => List.prefix_rfl⟩
  | clock | order => exact (inbox_wake _ _).symm ▸ .refl _
  | bus | turn => exact .refl _

/-- What becomes of a site whose worker has been told to stop: the worker turns to nothing else and
sends what is `pending`, and its events are not taken any more. -/
structure WindsDown (s : Site) (more : List Incident) (s' : Site) : Prop where
  isStopping : s'.isStopping = true
  unroused : ∀ i ∈ more, i.isRousing = false
  sent : more.filterMap Incident.sent? ++ s'.worker.pending = s.worker.pending
  lingers : s.inbox.Lingers s'.inbox

lemma Reaches.windsDown (h : s.Reaches more s') (hordered : s.isStopping = true) :
    s.WindsDown more s' := by
  have hstopping : s'.isStopping = true ∧ (∀ i ∈ more, i.isRousing = false) ∧
      s.inbox.Lingers s'.inbox := by
    induction h with
    | start => exact ⟨hordered, List.forall_mem_nil _, .refl _⟩
    | next _ hhappens ih =>
      obtain ⟨hordered', hunroused, hlingers⟩ := ih
      refine ⟨hhappens.isStopping hordered', fun i hi => ?_,
        hlingers.trans (hhappens.lingers hordered')⟩
      exact (List.mem_append.1 hi).elim (hunroused i) (hhappens.unroused hordered' i)
  obtain ⟨hordered', hunroused, hlingers⟩ := hstopping
  exact ⟨hordered', hunroused, h.sent_append hunroused, hlingers⟩

/-! ## What is at hand -/

/-- What `commandsOf` the log has is what `commandsSent` has, and then what is `pending`. -/
def KeepsUp (log : List Incident) (s : Site) : Prop :=
  commandsSent log ++ s.worker.pending.map Prod.fst = commandsOf log

lemma IsStart.keepsUp {r : Topic.Registry} {settings : Settings} (h : s.IsStart r settings) :
    s.KeepsUp [] := by
  rw [KeepsUp, h.worker]
  rfl

lemma KeepsUp.happens (h : s.KeepsUp log) (hhappens : s.Happens more s') :
    s'.KeepsUp (log ++ more) := by
  unfold KeepsUp commandsSent at h ⊢
  rcases hhappens.roused_or_unroused with
    ⟨-, hpending, e?, o, machine, rfl, hworker, hslots⟩ | hunroused
  · -- what was at hand has been dealt with, and the commands of the outcome are at hand now
    rw [hpending, List.map_nil, List.append_nil] at h
    have hroused : (Incident.roused s.now e? o).sent? = none := rfl
    rw [commandsOf_append_roused, ← h, List.filterMap_append, List.filterMap_cons_none hroused,
      Incident.filterMap_map_noted fun _ => rfl, List.append_nil, hworker, Worker.react_eq,
      Worker.pending_proceed, s.worker.map_fst_addressed hslots]
  · rw [commandsOf_append_of_unroused hunroused, ← h, List.filterMap_append, ← List.map_append,
      List.append_assoc, hhappens.sent_append hunroused, List.map_append]

end Site

end VoiceTurn.Conductor
