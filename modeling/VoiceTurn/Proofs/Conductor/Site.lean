import Mathlib.Tactic.Lemma
import Mathlib.Tactic.SplitIfs
import VoiceTurn.Conductor.Site
import VoiceTurn.Proofs.Conductor.Timing

/-!
# The parts of a site

What deliveries do to a site (`Site.Delivered`): they enter events into the inbox and records into
taps, and wake whom they concern. And what the worker does with an event and with a command, in
terms of the machine as it will be once everything at hand is sent.
-/

namespace VoiceTurn.Conductor

open Bus (Delivery)

/-! ## The inbox -/

namespace Inbox

variable {α : Type} {b : Inbox α}

/-- Every item is an `offer`, in order. -/
def offerAll (b : Inbox α) (items : List α) : Inbox α := items.foldl offer b

lemma offer_cases (hopen : b.isClosed = false) (a : α) :
    b.offer a = { b with items := b.items ++ [a] } ∨
      b.offer a = { b with overflows := b.overflows + 1 } := by
  unfold offer
  rw [hopen]
  cases b.hasRoom
  · exact .inr rfl
  · exact .inl rfl

/-- Items of `offerAll` enter in order as long as none is lost, and nothing else changes. -/
lemma offerAll_spec (hopen : b.isClosed = false) (items : List α) :
    (b.offerAll items).isClosed = false ∧ (b.offerAll items).waiting = b.waiting ∧
      b.overflows ≤ (b.offerAll items).overflows ∧
      ((b.offerAll items).overflows = b.overflows →
        (b.offerAll items).items = b.items ++ items) := by
  induction items generalizing b with
  | nil => exact ⟨hopen, rfl, Nat.le_refl _, fun _ => (List.append_nil _).symm⟩
  | cons a items ih =>
    rcases offer_cases hopen a with h | h
    · obtain ⟨hclosed, hwaiting, hle, hitems⟩ := ih (b := { b with items := b.items ++ [a] }) hopen
      rw [offerAll, List.foldl_cons, h]
      refine ⟨hclosed, hwaiting, hle, fun heq => ?_⟩
      have hentered := hitems heq
      rwa [List.append_assoc] at hentered
    · obtain ⟨hclosed, hwaiting, hle, -⟩ := ih (b := { b with overflows := b.overflows + 1 }) hopen
      rw [offerAll, List.foldl_cons, h]
      have hlost :
          b.overflows + 1 ≤ (offerAll { b with overflows := b.overflows + 1 } items).overflows :=
        hle
      refine ⟨hclosed, hwaiting, Nat.le_of_succ_le hlost, fun heq => ?_⟩
      rw [offerAll] at hlost
      omega

lemma isClosed_offerAll (b : Inbox α) (events : List α) :
    (b.offerAll events).isClosed = b.isClosed := by
  induction events generalizing b with
  | nil => rfl
  | cons e events ih =>
    rw [offerAll, List.foldl_cons]
    refine (ih _).trans ?_
    unfold offer
    split_ifs <;> rfl

lemma isClosed_take {b' : Inbox α} {a : α} (htake : b.take? = some (a, b')) :
    b'.isClosed = b.isClosed := by
  unfold take? at htake
  split at htake
  · cases htake
  · split at htake <;> cases htake <;> rfl

lemma isClosed_send {b' : Inbox α} {a : α} {sending : Sending}
    (hsend : b.send a = (sending, b')) : b'.isClosed = b.isClosed := by
  unfold send at hsend
  split_ifs at hsend <;> cases hsend <;> rfl

lemma items_eq_nil_of_offerAll {events : List α} (h : (b.offerAll events).items = []) :
    b.items = [] := by
  induction events generalizing b with
  | nil => exact h
  | cons e events ih =>
    have hoffer : (b.offer e).items = [] := ih h
    unfold offer at hoffer
    split_ifs at hoffer
    · exact hoffer
    · exact (List.append_eq_nil_iff.1 hoffer).1
    · exact hoffer

lemma items_eq_nil_of_send {b' : Inbox α} {a : α} {sending : Sending}
    (hsend : b.send a = (sending, b')) (h : b'.items = []) : b.items = [] := by
  unfold send at hsend
  split_ifs at hsend <;> cases hsend
  · exact h
  · exact (List.append_eq_nil_iff.1 h).1
  · exact h

end Inbox

/-! ## Deliveries -/

/-- The events that deliveries to an `inbox` enter, in order. -/
def eventsOf (ds : List (Delivery Receiver)) : List Event :=
  ds.filterMap fun d =>
    match d.receiver with
    | .inbox cue => some ⟨cue, d.message.payload⟩
    | .tap .. => none

namespace Site

/-- Whether a part has been woken by `wake` and has not come to rest. -/
def IsAwake (s : Site) (p : Part) : Prop := p ∈ s.ready ∨ p ∈ s.yielded

lemma isAwake_wake (s : Site) (p : Part) : (s.wake p).IsAwake p := by
  unfold wake
  split_ifs with h
  · simpa [IsAwake] using h
  · exact .inl (List.mem_append_right _ List.mem_cons_self)

lemma IsAwake.wake {s : Site} {p : Part} (h : s.IsAwake p) (q : Part) : (s.wake q).IsAwake p := by
  unfold Site.wake
  split_ifs
  · exact h
  · exact h.imp_left (List.mem_append_left _)

/-- What becomes of a site when `events` are entered into its inbox, but for its taps. -/
structure Delivered (s : Site) (events : List Event) (s' : Site) : Prop where
  now : s'.now = s.now
  access : s'.access = s.access
  worker : s'.worker = s.worker
  feed : s'.feed = s.feed
  pausedUntil : s'.pausedUntil = s.pausedUntil
  isStopping : s'.isStopping = s.isStopping
  inbox : s'.inbox = s.inbox.offerAll events
  awake : s.IsAwake .worker ∨ events ≠ [] → s'.IsAwake .worker

lemma wake_eq (s : Site) (p : Part) : ∃ ready, s.wake p = { s with ready } := by
  unfold wake
  split_ifs
  · exact ⟨s.ready, rfl⟩
  · exact ⟨_, rfl⟩

@[simp] lemma inbox_wake (s : Site) (p : Part) : (s.wake p).inbox = s.inbox := by
  obtain ⟨ready, hready⟩ := wake_eq s p
  rw [hready]

@[simp] lemma access_wake (s : Site) (p : Part) : (s.wake p).access = s.access := by
  obtain ⟨ready, hready⟩ := wake_eq s p
  rw [hready]

@[simp] lemma worker_wake (s : Site) (p : Part) : (s.wake p).worker = s.worker := by
  obtain ⟨ready, hready⟩ := wake_eq s p
  rw [hready]

@[simp] lemma feed_wake (s : Site) (p : Part) : (s.wake p).feed = s.feed := by
  obtain ⟨ready, hready⟩ := wake_eq s p
  rw [hready]

@[simp] lemma isStopping_wake (s : Site) (p : Part) : (s.wake p).isStopping = s.isStopping := by
  obtain ⟨ready, hready⟩ := wake_eq s p
  rw [hready]

lemma delivered_deliver (s : Site) (d : Delivery Receiver) :
    s.Delivered (eventsOf [d]) (s.deliver d) := by
  unfold deliver
  cases hd : d.receiver with
  | inbox cue =>
    have hevents : eventsOf [d] = [⟨cue, d.message.payload⟩] := by
      simp only [eventsOf, List.filterMap_cons, hd, List.filterMap_nil]
    rw [hevents]
    have hawake := isAwake_wake { s with inbox := s.inbox.offer ⟨cue, d.message.payload⟩ } .worker
    obtain ⟨ready, hwake⟩ :=
      wake_eq { s with inbox := s.inbox.offer ⟨cue, d.message.payload⟩ } .worker
    simp only
    rw [hwake] at hawake ⊢
    exact ⟨rfl, rfl, rfl, rfl, rfl, rfl, rfl, fun _ => hawake⟩
  | tap i cue =>
    have hevents : eventsOf [d] = [] := by
      simp only [eventsOf, List.filterMap_cons, hd, List.filterMap_nil]
    rw [hevents]
    generalize htapped : { s with
      taps := s.taps.modify i (·.offer ⟨d.message.topic, cue, d.message.payload⟩) } = tapped
    have hawake : s.IsAwake .worker → (tapped.wake (.tap i)).IsAwake .worker := by
      intro h
      refine IsAwake.wake ?_ _
      rw [← htapped]
      exact h
    obtain ⟨ready, hwake⟩ := wake_eq tapped (.tap i)
    simp only [htapped]
    rw [hwake] at hawake ⊢
    subst htapped
    exact ⟨rfl, rfl, rfl, rfl, rfl, rfl, rfl, fun h => hawake (h.resolve_right fun hne => hne rfl)⟩

lemma Delivered.trans {s s' s'' : Site} {es es' : List Event} (h : s.Delivered es s')
    (h' : s'.Delivered es' s'') : s.Delivered (es ++ es') s'' where
  now := h'.now.trans h.now
  access := h'.access.trans h.access
  worker := h'.worker.trans h.worker
  feed := h'.feed.trans h.feed
  pausedUntil := h'.pausedUntil.trans h.pausedUntil
  isStopping := h'.isStopping.trans h.isStopping
  inbox := by
    rw [h'.inbox, h.inbox, Inbox.offerAll, Inbox.offerAll, Inbox.offerAll, List.foldl_append]
  awake := by
    intro hawake
    by_cases hes : es = []
    · subst hes
      by_cases hes' : es' = []
      · subst hes'
        exact h'.awake (.inl (h.awake (.inl (hawake.resolve_right fun hne => hne rfl))))
      · exact h'.awake (.inr hes')
    · exact h'.awake (.inl (h.awake (.inr hes)))

/-- The events that `deliverAll` enters are `eventsOf` the deliveries. -/
lemma delivered_deliverAll (s : Site) (ds : List (Delivery Receiver)) :
    s.Delivered (eventsOf ds) (s.deliverAll ds) := by
  induction ds generalizing s with
  | nil => exact ⟨rfl, rfl, rfl, rfl, rfl, rfl, rfl, fun h => h.resolve_right fun hne => hne rfl⟩
  | cons d ds ih =>
    have hevents : eventsOf (d :: ds) = eventsOf [d] ++ eventsOf ds := by
      rw [← List.singleton_append, eventsOf, List.filterMap_append]
      rfl
    rw [hevents]
    exact (delivered_deliver s d).trans (ih (s.deliver d))

end Site

/-! ## The worker -/

namespace Worker

variable {w : Worker} {now : Nat}

/-- Each `proceed` leaves the machine as it is, or ends its turn. -/
lemma machine_proceed (w : Worker) (commands : List (Command × String)) (ending : Option Phase) :
    (w.proceed commands ending).1.machine = w.machine ∨
      (w.proceed commands ending).1.machine = w.machine.clear := by
  rcases w.proceed_cases commands ending with
    ⟨_, _, -, heq⟩ | ⟨-, -, heq⟩ | ⟨_, _, -, -, -, heq⟩ <;> rw [heq]
  · exact .inl rfl
  · exact .inl rfl
  · exact .inr rfl

lemma machine_react (w : Worker) (o : Outcome) (machine : Machine) :
    (w.react o machine).1.machine = machine ∨ (w.react o machine).1.machine = machine.clear := by
  have hproceed := machine_proceed (w.adopt o machine).1 (w.addressed o.commands) (ending? o)
  rw [machine_adopt] at hproceed
  rw [react_eq]
  exact hproceed

lemma machine_react_of_ne_nil {o : Outcome} (h : w.addressed o.commands ≠ [])
    (machine : Machine) : (w.react o machine).1.machine = machine := by
  rw [react_eq]
  cases hcommands : w.addressed o.commands with
  | nil => exact absurd hcommands h
  | cons c rest => exact machine_adopt w o machine

lemma isAhead_proceed (h : w.machine.IsAhead now) (commands : List (Command × String))
    (ending : Option Phase) : (w.proceed commands ending).1.machine.IsAhead now := by
  rcases w.machine_proceed commands ending with heq | heq <;> rw [heq]
  · exact h
  · exact Machine.isAhead_clear h.1

lemma handle_eq_react (e : Event) :
    w.handle e now = w.react (w.machine.handle e now).1 (w.machine.handle e now).2 := rfl

/-- Each `handle` is the calls `callsFor` the event, and their commands are those that are `pending`
now. -/
lemma handle_spec (hjob : w.job = .waiting) (e : Event) (now : Nat) :
    (w.handle e now).1.settled = w.settled.after (w.settled.callsFor (.event e now)) ∧
      (w.handle e now).1.pending =
        w.addressed (w.settled.commandLog (w.settled.callsFor (.event e now))) ∧
      (w.handle e now).1.registry = w.registry ∧ (w.handle e now).1.isStopped = false := by
  have hsettled : w.settled = w.machine := by rw [settled, hjob]
  rw [handle_eq_react, react_eq, Machine.after_callsFor, Machine.commandLog_callsFor, hsettled]
  refine ⟨?_, by simp; rfl, by simp, by simp⟩
  rw [settled_proceed, machine_adopt, isSome_ending?]
  rfl

/-- A `handle` of an event that is `awaited` is `Machine.accept`, and the session is not over
yet. -/
lemma machine_handle_of_awaited {e : Event} (h : e.cue ∈ w.machine.phase.awaited)
    (now : Nat) : (w.handle e now).1.machine = w.machine.accept now := by
  rw [handle_eq_react, Machine.handle_of_awaited _ _ h]
  refine machine_react_of_ne_nil (fun hnil => ?_) _
  have hslots : ∀ c ∈ e.commands w.machine.composer, c.HasSlot :=
    fun c hc => Event.hasSlot_of_mem_commands hc
  have hall := w.map_fst_addressed hslots
  -- every event has commands
  have hnone : e.commands w.machine.composer = [] := by
    rw [← hall]
    exact congrArg (List.map Prod.fst) hnil
  obtain ⟨cue, payload⟩ := e
  cases cue <;> cases hnone

lemma isAhead_handle (h : w.machine.IsAhead now) (e : Event) :
    (w.handle e now).1.machine.IsAhead now := by
  rw [handle_eq_react, react_eq]
  refine isAhead_proceed ?_ _ _
  rw [machine_adopt]
  exact Machine.isAhead_handle h e

section
variable {c : Command} {topic : String} {rest : List (Command × String)} {ending : Option Phase}
  (hjob : w.job = .sending (c, topic) rest ending) (result : Except Bus.Failure Unit)
include hjob

/-- Each `sent` leaves the `settled` machine and the rest of the commands. -/
lemma sent_spec :
    (w.sent result).1.settled = w.settled ∧ (w.sent result).1.pending = rest ∧
      (w.sent result).1.registry = w.registry ∧ (w.sent result).1.isStopped = false := by
  rw [sent_eq result hjob]
  refine ⟨?_, by simp, by simp, by simp⟩
  rw [settled_proceed, machine_noted, settled, hjob]
  cases ending <;> rfl

lemma machine_sent :
    (w.sent result).1.machine = w.machine ∨ (w.sent result).1.machine = w.machine.clear := by
  have hproceed := machine_proceed (w.noted result) rest ending
  rw [machine_noted] at hproceed
  rw [sent_eq result hjob]
  exact hproceed

lemma isAhead_sent (h : w.machine.IsAhead now) : (w.sent result).1.machine.IsAhead now := by
  rw [sent_eq result hjob]
  refine isAhead_proceed ?_ _ _
  rwa [machine_noted]

end

end Worker

end VoiceTurn.Conductor
