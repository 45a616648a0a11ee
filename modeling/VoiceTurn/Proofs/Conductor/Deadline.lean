import VoiceTurn.Proofs.Conductor.Operation

/-!
# The deadline of a session

What is written down about a site tells when the last event has been accepted and when the worker
has last been busy. The first fixes the deadline of the session, and the two together fix the
instant at which a waiting worker finds that it has come (`Site.Watches`).
-/

namespace VoiceTurn.Conductor

open Topic (Registry)

/-! ## What is told of the worker -/

namespace Incident

/-- The instant of a `roused` that has accepted an event. -/
def acceptedAt? : Incident → Option Nat
  | roused now (some _) o => if o.isAccepted then some now else none
  | _ => none

/-- The instant of a `roused` or a `sent`. -/
def busyAt? : Incident → Option Nat
  | roused now .. | sent now .. => some now
  | delivered .. | entered _ | noted _ => none

section
variable (now : Nat) (o : Outcome) (notices : List Notice)

lemma filterMap_acceptedAt?_roused (e : Event) :
    (roused now (some e) o :: notices.map noted).filterMap acceptedAt? =
      if o.isAccepted then [now] else [] := by
  have hnone := filterMap_map_noted (f := acceptedAt?) (fun _ => rfl) notices
  cases haccepted : o.isAccepted <;> simp [acceptedAt?, haccepted, hnone]

lemma filterMap_busyAt?_roused (e? : Option Event) :
    (roused now e? o :: notices.map noted).filterMap busyAt? = [now] := by
  have hnone := filterMap_map_noted (f := busyAt?) (fun _ => rfl) notices
  simp [busyAt?, hnone]

variable (c : Command) (topic : String) (result : Except Bus.Failure Unit)

lemma filterMap_acceptedAt?_sent :
    (sent now c topic result :: notices.map noted).filterMap acceptedAt? = [] := by
  simp [acceptedAt?]

lemma filterMap_busyAt?_sent :
    (sent now c topic result :: notices.map noted).filterMap busyAt? = [now] := by
  have hnone := filterMap_map_noted (f := busyAt?) (fun _ => rfl) notices
  simp [busyAt?, hnone]

end

end Incident

/-- The last instant that `Incident.acceptedAt?` gives. -/
def lastAccepted (log : List Incident) : Option Nat :=
  (log.filterMap Incident.acceptedAt?).getLast?

/-- The last instant that `Incident.busyAt?` gives; the worker has been waiting since. -/
def lastBusy (log : List Incident) : Nat := ((log.filterMap Incident.busyAt?).getLast?).getD 0

section
variable {log more : List Incident} {now : Nat}

lemma lastAccepted_append_of_nil (h : more.filterMap Incident.acceptedAt? = []) :
    lastAccepted (log ++ more) = lastAccepted log := by
  rw [lastAccepted, List.filterMap_append, h, List.append_nil]
  rfl

lemma lastAccepted_append_of_singleton (h : more.filterMap Incident.acceptedAt? = [now]) :
    lastAccepted (log ++ more) = some now := by
  rw [lastAccepted, List.filterMap_append, h, List.getLast?_concat]

lemma lastBusy_append_of_nil (h : more.filterMap Incident.busyAt? = []) :
    lastBusy (log ++ more) = lastBusy log := by
  rw [lastBusy, List.filterMap_append, h, List.append_nil]
  rfl

lemma lastBusy_append_of_singleton (h : more.filterMap Incident.busyAt? = [now]) :
    lastBusy (log ++ more) = now := by
  rw [lastBusy, List.filterMap_append, h, List.getLast?_concat, Option.getD_some]

end

namespace Site

variable {s s' : Site} {log more : List Incident} {patience : Nat}

/-! ## The deadline -/

/-- The session has last progressed at `lastAccepted`, and a worker that waits with an empty queue
waits until the deadline at the longest, or not at all when `lastBusy` is beyond the deadline. -/
structure Watches (patience : Nat) (log : List Incident) (s : Site) : Prop where
  patience : s.worker.machine.patience = patience
  accepted : ∀ σ ∈ s.worker.machine.session, lastAccepted log = some σ.progress
  past : lastBusy log ≤ s.now
  timely : s.worker.job = .waiting → s.inbox.items = [] →
    ∀ d ∈ s.worker.machine.deadline?, s.now ≤ max d (lastBusy log)

namespace Watches

lemma idle (h : s.Watches patience log) (hworker : s'.worker = s.worker) (hforward : s.now ≤ s'.now)
    (hitems : s'.inbox.items = [] → s.inbox.items = [])
    (haccepted : more.filterMap Incident.acceptedAt? = [])
    (hbusy : more.filterMap Incident.busyAt? = [])
    (htimely : s.worker.job = .waiting → s.inbox.items = [] →
      ∀ d ∈ s.worker.machine.deadline?, s'.now ≤ max d s.now) :
    s'.Watches patience (log ++ more) := by
  constructor
  · rw [hworker]
    exact h.patience
  · rw [hworker, lastAccepted_append_of_nil haccepted]
    exact h.accepted
  · rw [lastBusy_append_of_nil hbusy]
    exact h.past.trans hforward
  · rw [hworker, lastBusy_append_of_nil hbusy]
    intro hjob hempty d hd
    have hbefore := h.timely hjob (hitems hempty) d hd
    have hafter := htimely hjob (hitems hempty) d hd
    omega

/-- A worker that has been busy at this instant has not waited at all. -/
lemma busy (hpatience : s'.worker.machine.patience = patience)
    (haccepted : ∀ σ ∈ s'.worker.machine.session, lastAccepted (log ++ more) = some σ.progress)
    (hbusy : more.filterMap Incident.busyAt? = [s'.now]) : s'.Watches patience (log ++ more) := by
  have hlast : lastBusy (log ++ more) = s'.now := lastBusy_append_of_singleton hbusy
  refine ⟨hpatience, haccepted, hlast.le, fun _ _ d _ => ?_⟩
  rw [hlast]
  exact Nat.le_max_right _ _

/-- A command that has been `sent` may end a turn, and accepts nothing. -/
lemma sent (h : s.Watches patience log) (hnow : s'.now = s.now)
    (hmachine : s'.worker.machine = s.worker.machine ∨
      s'.worker.machine = s.worker.machine.clear)
    (haccepted : more.filterMap Incident.acceptedAt? = [])
    (hbusy : more.filterMap Incident.busyAt? = [s.now]) : s'.Watches patience (log ++ more) := by
  refine busy ?_ ?_ (by rw [hnow, hbusy])
  · rcases hmachine with heq | heq <;> rw [heq]
    · exact h.patience
    · exact h.patience
  · rw [lastAccepted_append_of_nil haccepted]
    rcases hmachine with heq | heq <;> rw [heq]
    · exact h.accepted
    · exact nofun

/-- Whatever the worker does (`Works`), it does at this instant. -/
lemma works (h : s.Watches patience log) (hworks : s.Works more s') :
    s'.Watches patience (log ++ more) := by
  cases hworks with
  | stop =>
    rw [List.append_nil]
    exact ⟨h.patience, h.accepted, h.past, fun hjob => by cases hjob⟩
  | @handle e inbox =>
    have hmachine : (s.worker.handle e s.now).1.machine = (s.worker.machine.handle e s.now).2 ∨
        (s.worker.handle e s.now).1.machine = (s.worker.machine.handle e s.now).2.clear :=
      Worker.machine_react _ _ _
    have hpatience : (s.worker.handle e s.now).1.machine.patience = patience := by
      rw [← h.patience, ← s.worker.machine.patience_handle e s.now]
      rcases hmachine with heq | heq <;> rw [heq]
      rfl
    have hlog := Incident.filterMap_acceptedAt?_roused s.now (s.worker.machine.handle e s.now).1
      (s.worker.handle e s.now).2 e
    refine busy hpatience (fun σ hσ => ?_) (Incident.filterMap_busyAt?_roused _ _ _ _)
    -- a session that is left is the one that the machine has answered with
    have hsession : (s.worker.handle e s.now).1.machine.session = some σ := hσ
    have hafter : (s.worker.machine.handle e s.now).2.session = some σ := by
      rcases hmachine with heq | heq <;> rw [heq] at hsession
      · exact hsession
      · cases hsession
    cases haccepted : (s.worker.machine.handle e s.now).1.isAccepted with
    | true =>
      rw [haccepted, if_pos rfl] at hlog
      rw [Machine.progress_handle _ _ _ haccepted hafter]
      exact lastAccepted_append_of_singleton hlog
    | false =>
      rw [haccepted, if_neg Bool.false_ne_true] at hlog
      rw [Machine.handle_of_not_isAccepted _ _ _ haccepted] at hafter
      rw [lastAccepted_append_of_nil hlog]
      exact h.accepted σ hafter
  | @expire o machine hjob hgoing hitems hexpire =>
    have hcleared : machine = s.worker.machine.clear := by
      rcases s.worker.machine.expire_cases s.now with ⟨σ, -, -, heq⟩ | ⟨-, heq⟩ <;>
        rw [heq] at hexpire <;> cases hexpire
      rfl
    have hmachine : (s.worker.react o machine).1.machine = s.worker.machine.clear := by
      rcases s.worker.machine_react o machine with heq | heq <;> rw [heq, hcleared]
      rfl
    -- there is no session any more
    refine busy ?_ ?_ (Incident.filterMap_busyAt?_roused _ _ _ _)
    · show (s.worker.react o machine).1.machine.patience = patience
      rw [hmachine]
      exact h.patience
    · show ∀ σ ∈ (s.worker.react o machine).1.machine.session, _
      rw [hmachine]
      exact nofun
  | @send c topic rest ending ds carrier left hjob hpublish =>
    have hnow := (delivered_deliverAll { s with
      access := { s.access with carrier }, pausedUntil := none, left } ds).now
    refine h.sent hnow (Worker.machine_sent hjob _) ?_ ?_
    · rw [List.filterMap_append, Inbox.filterMap_incidentsOf fun _ _ _ => rfl,
        Incident.filterMap_acceptedAt?_sent]
      rfl
    · rw [List.filterMap_append, Inbox.filterMap_incidentsOf fun _ _ _ => rfl,
        Incident.filterMap_busyAt?_sent]
      rfl
  | pause left pause hjob =>
    refine h.idle rfl (Nat.le_refl _) id rfl rfl fun hwaiting => ?_
    rw [hjob] at hwaiting
    cases hwaiting
  | giveUp left hjob =>
    exact h.sent rfl (Worker.machine_sent hjob _) (Incident.filterMap_acceptedAt?_sent ..)
      (Incident.filterMap_busyAt?_sent ..)

/-- Whatever `Happens`, the deadline is watched. -/
lemma happens (h : s.Watches patience log) (hhappens : s.Happens more s') :
    s'.Watches patience (log ++ more) := by
  -- at the same instant there is nothing to watch
  have hsame (_ : s.worker.job = .waiting) (_ : s.inbox.items = []) :
      ∀ d ∈ s.worker.machine.deadline?, s.now ≤ max d s.now :=
    fun d _ => Nat.le_max_right d s.now
  cases hhappens with
  | deliver m =>
    have hdelivered := s.delivered_deliverAll (s.access.carrier.subscriptions.deliveries m)
    refine h.idle hdelivered.worker hdelivered.now.ge (fun hitems => ?_)
      (Inbox.filterMap_incidentsOf (fun _ _ _ => rfl) _ _)
      (Inbox.filterMap_incidentsOf (fun _ _ _ => rfl) _ _) ?_
    · rw [hdelivered.inbox] at hitems
      exact Inbox.items_eq_nil_of_offerAll hitems
    · rw [hdelivered.now]
      exact hsame
  | work hstep hworks => exact h.works hworks
  | @enter e inbox hsend =>
    obtain ⟨ready, hready⟩ := wake_eq { s with inbox } .worker
    rw [hready]
    exact h.idle rfl (Nat.le_refl _) (Inbox.items_eq_nil_of_send hsend) rfl rfl hsame
  | lineUp hsend =>
    exact h.idle rfl (Nat.le_refl _) (Inbox.items_eq_nil_of_send hsend) rfl rfl hsame
  | @takePlace e before after hgranted =>
    obtain ⟨ready, hready⟩ := wake_eq { s with inbox := { s.inbox with
      items := s.inbox.items ++ [e], granted := before ++ after } } .worker
    rw [hready]
    exact h.idle rfl (Nat.le_refl _) (fun hitems => (List.append_eq_nil_iff.1 hitems).1) rfl rfl
      hsame
  | clock t hforward htimely =>
    obtain ⟨ready, hready⟩ := wake_eq { s with now := t } .worker
    rw [setClock, hready]
    exact h.idle rfl hforward id rfl rfl htimely
  | order =>
    obtain ⟨ready, hready⟩ := wake_eq { s with isStopping := true } .worker
    rw [orderStop, hready]
    exact h.idle rfl (Nat.le_refl _) id rfl rfl hsame
  | bus | turn => exact h.idle rfl (Nat.le_refl _) id rfl rfl hsame

/-- The worker abandons a session at its deadline, or at `lastBusy` when that is beyond the
deadline. -/
lemma on_time (h : s.Watches patience log) {σ : Session} (hjob : s.worker.job = .waiting)
    (hitems : s.inbox.items = []) (hσ : s.worker.machine.session = some σ)
    (hdue : σ.progress + patience ≤ s.now) :
    s.now = σ.progress + patience ∨
      σ.progress + patience < lastBusy log ∧ s.now = lastBusy log := by
  have hdeadline : s.worker.machine.deadline? = some (σ.progress + patience) := by
    rw [Machine.deadline?, hσ, ← h.patience]
    rfl
  have htimely := h.timely hjob hitems _ hdeadline
  have hpast := h.past
  omega

end Watches

lemma IsStart.watches {r : Registry} {settings : Settings} (h : s.IsStart r settings) :
    s.Watches settings.turn.stallTimeout.toNat [] := by
  refine ⟨?_, ?_, Nat.zero_le _, fun _ _ d hd => ?_⟩
  · rw [h.worker]
    rfl
  · rw [h.worker]
    exact nofun
  · rw [h.worker] at hd
    cases hd

end Site

end VoiceTurn.Conductor
