import VoiceTurn.Proofs.Conductor.Operation

/-!
# The queue of a site

Nothing that comes to a site is lost silently. What has entered the inbox has been handled, in order
and once, or is still in it, and what has not found a place is counted (`Inbox.Accounts`). This is
kept by everything that can happen at a site (`Site.Happens.accounts`).
-/

namespace VoiceTurn.Conductor

open Bus (Access Delivery Message Subscriptions)
open Topic (Registry)

/-! ## What has come and gone -/

namespace Incident

/-- The event that enters the queue, if one does: a `delivered` one needs a place. -/
def entrant? : Incident → Option Event
  | delivered _ e free => if free = 0 then none else some e
  | entered e => some e
  | roused .. | sent .. | noted _ => none

def taken? : Incident → Option Event
  | roused _ e? _ => e?
  | delivered .. | entered _ | sent .. | noted _ => none

def isDelivery : Incident → Bool
  | delivered .. => true
  | _ => false

/-- Whether a message of the bus has found no place. It can find none while the queue holds fewer
items than its capacity, because a place granted to a sender that waits counts as taken
(`Inbox.free`). -/
def isLoss : Incident → Bool
  | delivered _ _ free => free = 0
  | _ => false

def isInjection : Incident → Bool
  | entered _ => true
  | _ => false

/-- Whether the incident leaves the queue alone. -/
def isAside : Incident → Bool
  | delivered .. | entered _ => false
  | roused _ e? _ => e?.isNone
  | sent .. | noted _ => true

/-- Every `isDelivery` and every `isInjection` has entered or is lost. -/
lemma countP_isDelivery_add (log : List Incident) :
    log.countP isDelivery + log.countP isInjection =
      (log.filterMap entrant?).length + log.countP isLoss := by
  induction log with
  | nil => rfl
  | cons i log ih =>
    have hone : [i].countP isDelivery + [i].countP isInjection =
        ([i].filterMap entrant?).length + [i].countP isLoss := by
      cases i with
      | delivered m e free =>
        by_cases hfree : free = 0 <;> simp [hfree, isDelivery, isInjection, isLoss, entrant?]
      | entered | roused | sent | noted => rfl
    rw [← List.singleton_append, List.countP_append, List.countP_append, List.filterMap_append,
      List.length_append, List.countP_append]
    omega

end Incident

/-! ## Deliveries one by one -/

section
variable {d : Delivery Receiver} {cue : Cue} {index : Nat} (ds : List (Delivery Receiver))

lemma eventsOf_cons_inbox (h : d.receiver = .inbox cue) :
    eventsOf (d :: ds) = ⟨cue, d.message.payload⟩ :: eventsOf ds := by
  simp only [eventsOf, List.filterMap_cons, h]

lemma eventsOf_cons_tap (h : d.receiver = .tap index cue) : eventsOf (d :: ds) = eventsOf ds := by
  simp only [eventsOf, List.filterMap_cons, h]

lemma Inbox.incidentsOf_cons_inbox (b : Inbox Event) (h : d.receiver = .inbox cue) :
    b.incidentsOf (d :: ds) =
      (if b.isClosed then [] else [.delivered d.message ⟨cue, d.message.payload⟩ b.free]) ++
        (b.offer ⟨cue, d.message.payload⟩).incidentsOf ds := by
  simp only [Inbox.incidentsOf, h]

lemma Inbox.incidentsOf_cons_tap (b : Inbox Event) (h : d.receiver = .tap index cue) :
    b.incidentsOf (d :: ds) = b.incidentsOf ds := by
  simp only [Inbox.incidentsOf, h]

end

/-! ## The account of a queue -/

namespace Inbox

/-- A queue accounts for what is written down: what has entered has been `taken?` or is still there,
and `overflows` counts each `isLoss`. -/
structure Accounts (capacity : Nat) (log : List Incident) (b : Inbox Event) : Prop where
  sized : b.capacity = capacity
  bounded : b.items.length + b.granted.length ≤ capacity
  entries : log.filterMap Incident.entrant? = log.filterMap Incident.taken? ++ b.items
  losses : b.overflows = log.countP Incident.isLoss

namespace Accounts

variable {capacity : Nat} {log : List Incident} {b b' : Inbox Event}

/-- What `isAside` need not be accounted for. -/
lemma aside (h : b.Accounts capacity log) {more : List Incident}
    (hmore : ∀ i ∈ more, i.isAside = true) : b.Accounts capacity (log ++ more) := by
  have haside (i : Incident) (hi : i ∈ more) :
      i.entrant? = none ∧ i.taken? = none ∧ i.isLoss = false := by
    have htrue := hmore i hi
    cases i with
    | delivered | entered => cases htrue
    | roused now e? o => exact ⟨rfl, Option.isNone_iff_eq_none.1 htrue, rfl⟩
    | sent | noted => exact ⟨rfl, rfl, rfl⟩
  have hentries : more.filterMap Incident.entrant? = [] :=
    List.filterMap_eq_nil_iff.2 fun i hi => (haside i hi).1
  have htaken : more.filterMap Incident.taken? = [] :=
    List.filterMap_eq_nil_iff.2 fun i hi => (haside i hi).2.1
  have hlosses : more.countP Incident.isLoss = 0 :=
    List.countP_eq_zero.2 fun i hi => ne_true_of_eq_false (haside i hi).2.2
  refine ⟨h.sized, h.bounded, ?_, ?_⟩
  · rw [List.filterMap_append, List.filterMap_append, hentries, htaken, List.append_nil,
      List.append_nil]
    exact h.entries
  · rw [List.countP_append, hlosses]
    exact h.losses

/-- An item enters behind the others. -/
lemma enter (h : b.Accounts capacity log) {i : Incident} {e : Event} (granted : List Event)
    (hentry : i.entrant? = some e) (htaken : i.taken? = none) (hloss : i.isLoss = false)
    (hroom : b.items.length + 1 + granted.length ≤ capacity) :
    { b with items := b.items ++ [e], granted }.Accounts capacity (log ++ [i]) := by
  refine ⟨h.sized, ?_, ?_, ?_⟩
  · show (b.items ++ [e]).length + granted.length ≤ capacity
    rwa [List.length_append, List.length_singleton]
  · rw [List.filterMap_append, List.filterMap_append, h.entries, List.filterMap_cons_some hentry,
      List.filterMap_cons_none htaken, List.filterMap_nil, List.filterMap_nil, List.append_nil,
      List.append_assoc]
  · rw [List.countP_append, List.countP_singleton, hloss]
    exact h.losses

/-- An `offer` enters when there is a place, and is counted when there is none. -/
lemma offer (h : b.Accounts capacity log) (hopen : b.isClosed = false) (m : Message) (e : Event) :
    (b.offer e).Accounts capacity (log ++ [.delivered m e b.free]) := by
  have hbounded := h.bounded
  have hcapacity := h.sized
  cases hroom : b.hasRoom with
  | true =>
    have hoffer : b.offer e = { b with items := b.items ++ [e] } := by
      rw [Inbox.offer, hopen, hroom]
      rfl
    have hlt : b.items.length + b.granted.length < b.capacity := of_decide_eq_true hroom
    have hfree : b.free ≠ 0 := by unfold Inbox.free; omega
    have hentry : (Incident.delivered m e b.free).entrant? = some e := if_neg hfree
    rw [hoffer]
    exact h.enter b.granted hentry rfl (decide_eq_false hfree) (by omega)
  | false =>
    have hoffer : b.offer e = { b with overflows := b.overflows + 1 } := by
      rw [Inbox.offer, hopen, hroom]
      rfl
    have hge : ¬ b.items.length + b.granted.length < b.capacity := of_decide_eq_false hroom
    have hfree : b.free = 0 := by unfold Inbox.free; omega
    rw [hoffer]
    refine ⟨hcapacity, hbounded, ?_, ?_⟩
    · rw [hfree, List.filterMap_append, List.filterMap_append, h.entries]
      simp [Incident.entrant?, Incident.taken?]
    · rw [hfree, List.countP_append, ← h.losses]
      rfl

/-- An `offerAll` is accounted for one delivery after the other. -/
lemma offerAll (h : b.Accounts capacity log) (ds : List (Delivery Receiver)) :
    (b.offerAll (eventsOf ds)).Accounts capacity (log ++ b.incidentsOf ds) := by
  induction ds generalizing b log with
  | nil => rwa [Inbox.incidentsOf, List.append_nil]
  | cons d ds ih =>
    cases hreceiver : d.receiver with
    | tap index cue =>
      rw [eventsOf_cons_tap ds hreceiver, incidentsOf_cons_tap ds b hreceiver]
      exact ih h
    | inbox cue =>
      rw [eventsOf_cons_inbox ds hreceiver, incidentsOf_cons_inbox ds b hreceiver, Inbox.offerAll,
        List.foldl_cons, ← List.append_assoc]
      refine ih ?_
      cases hclosed : b.isClosed with
      | true =>
        have hsame : b.offer ⟨cue, d.message.payload⟩ = b := if_pos hclosed
        rwa [hsame, if_pos rfl, List.append_nil]
      | false => exact h.offer hclosed d.message _

/-- The oldest item is the one that `take?` takes, and its place goes to the first in line. -/
lemma take (h : b.Accounts capacity log) {e : Event} (htake : b.take? = some (e, b')) (now : Nat)
    (o : Outcome) : b'.Accounts capacity (log ++ [.roused now (some e) o]) := by
  have hbounded := h.bounded
  -- whoever is granted the place, the items and the number of places in use are the same
  obtain ⟨items, hitems, hitems', hcapacity', hplaces, hoverflows'⟩ :
      ∃ items, b.items = e :: items ∧ b'.items = items ∧ b'.capacity = b.capacity ∧
        b'.granted.length ≤ b.granted.length + 1 ∧ b'.overflows = b.overflows := by
    unfold Inbox.take? at htake
    cases hitems : b.items with
    | nil => simp [hitems] at htake
    | cons a items =>
      cases hwaiting : b.waiting with
      | nil =>
        simp only [hitems, hwaiting] at htake
        cases htake
        exact ⟨items, rfl, rfl, rfl, Nat.le_succ _, rfl⟩
      | cons w waiting =>
        simp only [hitems, hwaiting] at htake
        cases htake
        exact ⟨items, rfl, rfl, rfl, List.length_append.le, rfl⟩
  refine ⟨hcapacity'.trans h.sized, ?_, ?_, ?_⟩
  · rw [hitems, List.length_cons] at hbounded
    rw [hitems']
    omega
  · have hentries := h.entries
    rw [hitems] at hentries
    rw [List.filterMap_append, List.filterMap_append, hentries, hitems']
    simp [Incident.entrant?, Incident.taken?]
  · rw [hoverflows', List.countP_append, h.losses]
    rfl

/-- An item whose `send` is `entered` at once. -/
lemma send (h : b.Accounts capacity log) {e : Event} (hsend : b.send e = (.entered, b')) :
    b'.Accounts capacity (log ++ [.entered e]) := by
  have hsized := h.sized
  unfold Inbox.send at hsend
  split at hsend
  · cases hsend
  · split at hsend
    · next hroom =>
      cases hsend
      have hlt : b.items.length + b.granted.length < b.capacity := of_decide_eq_true hroom
      have hentry : (Incident.entered e).entrant? = some e := rfl
      exact h.enter b.granted hentry rfl rfl (by omega)
    · cases hsend

/-- An item whose `send` `waits` takes no place. -/
lemma lineUp (h : b.Accounts capacity log) {e : Event} (hsend : b.send e = (.waits, b')) :
    b'.Accounts capacity log := by
  unfold Inbox.send at hsend
  split at hsend
  · cases hsend
  · split at hsend <;> cases hsend
    exact ⟨h.sized, h.bounded, h.entries, h.losses⟩

/-- A sender enters its item in the place that it has been granted. -/
lemma takePlace (h : b.Accounts capacity log) {e : Event} {before after : List Event}
    (hgranted : b.granted = before ++ e :: after) :
    { b with items := b.items ++ [e], granted := before ++ after }.Accounts capacity
      (log ++ [Incident.entered e]) := by
  have hbounded := h.bounded
  rw [hgranted, List.length_append, List.length_cons] at hbounded
  have hentry : (Incident.entered e).entrant? = some e := rfl
  refine h.enter (before ++ after) hentry rfl rfl ?_
  rw [List.length_append]
  omega

lemma close (h : b.Accounts capacity log) : b.close.Accounts capacity log :=
  ⟨h.sized, Nat.le_trans (Nat.le_add_right _ _) h.bounded, h.entries, h.losses⟩

end Accounts

lemma accounts_withCapacity (capacity : Nat) :
    (withCapacity capacity : Inbox Event).Accounts (max capacity 1) [] :=
  ⟨rfl, Nat.zero_le _, rfl, rfl⟩

/-! ## What comes to an inbox -/

lemma incidentsOf_of_eventsOf_eq_nil (b : Inbox Event) {ds : List (Delivery Receiver)}
    (hevents : eventsOf ds = []) : b.incidentsOf ds = [] := by
  induction ds with
  | nil => rfl
  | cons d ds ih =>
    cases hreceiver : d.receiver with
    | tap index cue =>
      rw [eventsOf_cons_tap ds hreceiver] at hevents
      rw [incidentsOf_cons_tap ds b hreceiver, ih hevents]
    | inbox cue =>
      rw [eventsOf_cons_inbox ds hreceiver] at hevents
      cases hevents

lemma incidentsOf_of_isClosed {b : Inbox Event} (hclosed : b.isClosed = true)
    (ds : List (Delivery Receiver)) : b.incidentsOf ds = [] := by
  induction ds with
  | nil => rfl
  | cons d ds ih =>
    cases hreceiver : d.receiver with
    | tap index cue => rw [incidentsOf_cons_tap ds b hreceiver, ih]
    | inbox cue =>
      have hsame : b.offer ⟨cue, d.message.payload⟩ = b := if_pos hclosed
      rw [incidentsOf_cons_inbox ds b hreceiver, hsame, ih, if_pos hclosed, List.append_nil]

/-- A single event of `eventsOf` comes to an open inbox once, with the message that reports it. -/
lemma incidentsOf_of_eventsOf_eq_singleton {b : Inbox Event} (hopen : b.isClosed = false)
    {ds : List (Delivery Receiver)} {e : Event} (hevents : eventsOf ds = [e]) :
    ∃ d ∈ ds, b.incidentsOf ds = [.delivered d.message e b.free] := by
  induction ds with
  | nil => cases hevents
  | cons d ds ih =>
    cases hreceiver : d.receiver with
    | tap index cue =>
      rw [eventsOf_cons_tap ds hreceiver] at hevents
      obtain ⟨d', hd', hincidents⟩ := ih hevents
      refine ⟨d', List.mem_cons_of_mem _ hd', ?_⟩
      rw [incidentsOf_cons_tap ds b hreceiver, hincidents]
    | inbox cue =>
      rw [eventsOf_cons_inbox ds hreceiver] at hevents
      obtain ⟨rfl, hrest⟩ := List.cons.inj hevents
      refine ⟨d, List.mem_cons_self, ?_⟩
      rw [incidentsOf_cons_inbox ds b hreceiver, incidentsOf_of_eventsOf_eq_nil _ hrest,
        List.append_nil, hopen]
      rfl

/-- Where a message enters the inbox as its `eventOf?`, that is what comes of it. -/
lemma incidentsOf_deliveries {b : Inbox Event} (hopen : b.isClosed = false) {r : Registry}
    {t : Subscriptions Receiver} {m : Message}
    (hroute : eventsOf (t.deliveries m) = (r.eventOf? m).toList) :
    ∃ m' : Message, m'.topic = m.topic ∧ m'.payload = m.payload ∧
      b.incidentsOf (t.deliveries m) = (r.eventOf? m).toList.map (.delivered m' · b.free) := by
  cases hevent : r.eventOf? m with
  | none =>
    rw [hevent] at hroute
    exact ⟨m, rfl, rfl, b.incidentsOf_of_eventsOf_eq_nil hroute⟩
  | some e =>
    rw [hevent] at hroute
    obtain ⟨d, hd, hincidents⟩ := incidentsOf_of_eventsOf_eq_singleton hopen hroute
    obtain ⟨q, -, rfl⟩ := List.mem_map.1 hd
    exact ⟨{ m with qos := q.qos.weaker m.qos }, rfl, rfl, hincidents⟩

end Inbox

namespace Site

variable {s s' : Site} {capacity : Nat} {log more : List Incident} {r : Registry}

/-! ## What happens at a site -/

/-- Whatever the worker does, its queue `Accounts` for it. -/
lemma Works.accounts (h : s.Works more s') (haccounts : s.inbox.Accounts capacity log) :
    s'.inbox.Accounts capacity (log ++ more) := by
  cases h with
  | stop =>
    rw [List.append_nil]
    exact haccounts.close
  | handle hjob hgoing htake =>
    rw [← List.singleton_append, ← List.append_assoc]
    refine (haccounts.take htake _ _).aside fun i hi => ?_
    obtain ⟨n, -, rfl⟩ := List.mem_map.1 hi
    rfl
  | expire =>
    refine haccounts.aside fun i hi => ?_
    rcases Incident.eq_or_noted_of_mem hi with rfl | ⟨n, -, rfl⟩ <;> rfl
  | @send c topic rest ending ds carrier left =>
    have hinbox := (delivered_deliverAll { s with
      access := { s.access with carrier }, pausedUntil := none, left } ds).inbox
    have hoffered := haccounts.offerAll ds
    rw [← hinbox] at hoffered
    rw [← List.append_assoc]
    refine hoffered.aside fun i hi => ?_
    rcases Incident.eq_or_noted_of_mem hi with rfl | ⟨n, -, rfl⟩ <;> rfl
  | pause =>
    rw [List.append_nil]
    exact haccounts
  | giveUp =>
    refine haccounts.aside fun i hi => ?_
    rcases Incident.eq_or_noted_of_mem hi with rfl | ⟨n, -, rfl⟩ <;> rfl

/-- Whatever `Happens`, the queue `Accounts` for it. -/
lemma Happens.accounts (h : s.Happens more s') (haccounts : s.inbox.Accounts capacity log) :
    s'.inbox.Accounts capacity (log ++ more) := by
  cases h with
  | deliver m =>
    rw [(s.delivered_deliverAll _).inbox]
    exact haccounts.offerAll _
  | work hstep hworks => exact hworks.accounts haccounts
  | enter hsend =>
    rw [inbox_wake]
    exact haccounts.send hsend
  | lineUp hsend =>
    rw [List.append_nil]
    exact haccounts.lineUp hsend
  | takePlace hgranted =>
    rw [inbox_wake]
    exact haccounts.takePlace hgranted
  | clock | order =>
    rw [List.append_nil]
    exact (inbox_wake _ _).symm ▸ haccounts
  | bus | turn =>
    rw [List.append_nil]
    exact haccounts

/-! ## Where events come from -/

/-- An open inbox gets the events of a registry, and every message that has come did so as its
`eventOf?`. -/
structure IsRouted (r : Registry) (log : List Incident) (s : Site) : Prop where
  routes : s.inbox.isClosed = false →
    ∀ m, eventsOf (s.access.carrier.subscriptions.deliveries m) = (r.eventOf? m).toList
  reports : ∀ m e free, .delivered m e free ∈ log → r.eventOf? m = some e

namespace IsRouted

lemma keep (h : s.IsRouted r log) (hclosed : s'.inbox.isClosed = s.inbox.isClosed)
    (hsubscriptions : s'.access.carrier.subscriptions = s.access.carrier.subscriptions)
    (hmore : ∀ m e free, .delivered m e free ∈ more → r.eventOf? m = some e) :
    s'.IsRouted r (log ++ more) where
  routes := by
    rw [hclosed, hsubscriptions]
    exact h.routes
  reports m e free hmem := (List.mem_append.1 hmem).elim (h.reports m e free) (hmore m e free)

/-- What comes of a message comes as its `eventOf?`. -/
lemma eventOf?_of_mem (h : s.IsRouted r log) (m : Message) {m' : Message} {e : Event} {free : Nat}
    (hmem : .delivered m' e free ∈
      s.inbox.incidentsOf (s.access.carrier.subscriptions.deliveries m)) :
    r.eventOf? m' = some e := by
  cases hclosed : s.inbox.isClosed with
  | true =>
    rw [Inbox.incidentsOf_of_isClosed hclosed] at hmem
    cases hmem
  | false =>
    obtain ⟨m'', htopic, hpayload, hincidents⟩ :=
      Inbox.incidentsOf_deliveries hclosed (h.routes hclosed m)
    rw [hincidents] at hmem
    obtain ⟨e', he', heq⟩ := List.mem_map.1 hmem
    obtain ⟨rfl, rfl, -⟩ := Incident.delivered.inj heq
    rw [Registry.eventOf?, htopic, hpayload]
    exact Option.mem_toList.1 he'

lemma works (h : s.IsRouted r log) (hworks : s.Works more s') : s'.IsRouted r (log ++ more) := by
  -- there are no deliveries but those of a command that has been sent
  have hnotices {notices : List Notice} {i : Incident} (hi : ∀ m e free, i ≠ .delivered m e free)
      (m : Message) (e : Event) (free : Nat)
      (hmem : .delivered m e free ∈ i :: notices.map .noted) : r.eventOf? m = some e := by
    rcases Incident.eq_or_noted_of_mem hmem with heq | ⟨n, -, heq⟩
    · exact absurd heq.symm (hi m e free)
    · cases heq
  cases hworks with
  | stop =>
    rw [List.append_nil]
    exact ⟨nofun, h.reports⟩
  | handle hjob hgoing htake => exact h.keep (Inbox.isClosed_take htake) rfl (hnotices nofun)
  | expire => exact h.keep rfl rfl (hnotices nofun)
  | @send c topic rest ending ds carrier left hjob hpublish =>
    obtain ⟨hsubscriptions, hdeliveries⟩ := publish_spec hpublish
    have hdelivered := delivered_deliverAll { s with
      access := { s.access with carrier }, pausedUntil := none, left } ds
    refine h.keep ?_ ?_ fun m e free hmem => ?_
    · exact (congrArg Inbox.isClosed hdelivered.inbox).trans (Inbox.isClosed_offerAll _ _)
    · exact (congrArg (fun a => a.carrier.subscriptions) hdelivered.access).trans hsubscriptions
    · rcases List.mem_append.1 hmem with hmem | hmem
      · rcases hdeliveries ds rfl with rfl | rfl
        · cases hmem
        · exact h.eventOf?_of_mem _ hmem
      · refine hnotices ?_ m e free hmem
        nofun
  | pause left pause hjob hpublish => exact h.keep rfl (publish_spec hpublish).1 nofun
  | giveUp left hjob hpublish => exact h.keep rfl (publish_spec hpublish).1 (hnotices nofun)

lemma happens (h : s.IsRouted r log) (hhappens : s.Happens more s') :
    s'.IsRouted r (log ++ more) := by
  cases hhappens with
  | deliver m =>
    have hdelivered := s.delivered_deliverAll (s.access.carrier.subscriptions.deliveries m)
    refine h.keep ?_ ?_ fun m' e free hmem => h.eventOf?_of_mem m hmem
    · exact (congrArg Inbox.isClosed hdelivered.inbox).trans (Inbox.isClosed_offerAll _ _)
    · exact congrArg (fun a => a.carrier.subscriptions) hdelivered.access
  | work hstep hworks => exact h.works hworks
  | enter hsend =>
    refine h.keep ?_ (by rw [access_wake]) (by simp)
    rw [inbox_wake]
    exact Inbox.isClosed_send hsend
  | lineUp hsend => exact h.keep (Inbox.isClosed_send hsend) rfl nofun
  | takePlace hgranted =>
    refine h.keep ?_ (by rw [access_wake]) (by simp)
    rw [inbox_wake]
  | clock => exact h.keep (by rw [setClock, inbox_wake]) (by rw [setClock, access_wake]) nofun
  | order => exact h.keep (by rw [orderStop, inbox_wake]) (by rw [orderStop, access_wake]) nofun
  | bus access subscriptions hroutes =>
    rw [List.append_nil]
    refine ⟨fun hopen m => ?_, h.reports⟩
    have hclosed : s.inbox.isClosed ≠ true := ne_true_of_eq_false hopen
    exact (hroutes.resolve_left hclosed m).trans (h.routes hopen m)
  | turn => exact h.keep rfl rfl nofun

end IsRouted

/-- A `deliverAll` that enters one event is one `delivered`. -/
lemma exists_happens_delivered {m : Message} {e : Event} (hopen : s.inbox.isClosed = false)
    (hevents : eventsOf (s.access.carrier.subscriptions.deliveries m) = [e]) :
    ∃ m' s', s.Happens [.delivered m' e s.inbox.free] s' ∧ s.Delivered [e] s' := by
  obtain ⟨d, -, hd⟩ := Inbox.incidentsOf_of_eventsOf_eq_singleton hopen hevents
  have hdelivered := s.delivered_deliverAll (s.access.carrier.subscriptions.deliveries m)
  rw [hevents] at hdelivered
  refine ⟨d.message, _, ?_, hdelivered⟩
  rw [← hd]
  exact .deliver m

/-! ## The result -/

/-- Wherever a site can be, its queue is within its capacity, what has entered has been `taken?` in
order or is still in it, and `overflows` counts each `isLoss`. A message can be lost while there are
fewer items than the capacity, because a place granted to a waiting sender counts as taken. -/
theorem queue_is_accounted_for {access access' : Access Receiver} {taps : List Tap}
    {retry : Bus.Retry} {settings : Settings} {begun : Site}
    (htaps : ∀ q ∈ requestsOf access.carrier.subscriptions, isForTap q = true)
    (hstart : start access taps retry r settings = (.ok begun, access'))
    (hreaches : begun.Reaches log s) :
    s.inbox.items.length + s.inbox.granted.length ≤ max settings.turn.queueCapacity.toNat 1 ∧
    log.filterMap Incident.entrant? = log.filterMap Incident.taken? ++ s.inbox.items ∧
    (∀ m e free, .delivered m e free ∈ log → r.eventOf? m = some e) ∧
    log.countP Incident.isDelivery + log.countP Incident.isInjection =
      (log.filterMap Incident.taken?).length + s.inbox.items.length + s.inbox.overflows ∧
    s.inbox.overflows = log.countP Incident.isLoss ∧
    -- a message on a topic of the registry is always recorded as delivered, lost or not
    (s.inbox.isClosed = false → ∀ m, ∃ m' : Message, m'.topic = m.topic ∧ m'.payload = m.payload ∧
      s.Happens ((r.eventOf? m).toList.map (.delivered m' · s.inbox.free))
        (s.deliverAll (s.access.carrier.subscriptions.deliveries m))) ∧
    ∀ s', s.Operation s' → ∃ more, begun.Reaches (log ++ more) s' := by
  have hisStart := isStart_of_start hstart
  have hbegun : begun.inbox.Accounts (max settings.turn.queueCapacity.toNat 1) [] := by
    rw [hisStart.inbox]
    exact Inbox.accounts_withCapacity _
  have haccounts := hreaches.induction (P := fun log s => s.inbox.Accounts _ log) hbegun
    fun haccounts hhappens => hhappens.accounts haccounts
  have hroutes : begun.IsRouted r [] := ⟨fun _ => eventsOf_of_start hstart htaps, nofun⟩
  have hrouted := hreaches.induction (P := fun log s => s.IsRouted r log) hroutes
    fun hrouted hhappens => hrouted.happens hhappens
  refine ⟨haccounts.bounded, haccounts.entries, hrouted.reports, ?_, haccounts.losses,
    fun hopen m => ?_, fun s' hoperation => ?_⟩
  · have hlength := congrArg List.length haccounts.entries
    rw [List.length_append] at hlength
    rw [Incident.countP_isDelivery_add, hlength, haccounts.losses]
  · obtain ⟨m', htopic, hpayload, hincidents⟩ :=
      Inbox.incidentsOf_deliveries hopen (hrouted.routes hopen m)
    refine ⟨m', htopic, hpayload, ?_⟩
    rw [← hincidents]
    exact .deliver m
  · obtain ⟨more, hmore⟩ := exists_reaches_operation hoperation (hreaches.isAlert hisStart.isAlert)
    exact ⟨more, hreaches.trans hmore⟩

/-- Two wake words come to a queue for one event, and the worker handles the first of them; the
second one is counted in `overflows`. -/
theorem queue_is_accounted_for_when_full :
    let settings := { Settings.stock with turn := { queueCapacity := 1 } }
    ∃ begun access' s log,
      start { carrier := .link {} } [] .never .stock settings = (.ok begun, access') ∧
        begun.Reaches log s ∧ log.countP Incident.isDelivery = 2 ∧
        log.filterMap Incident.taken? = [⟨.wakeDetected, []⟩] ∧ s.inbox.items = [] ∧
        s.inbox.overflows = 1 := by
  intro settings
  obtain ⟨begun, access', hstart⟩ := exists_start Registry.defect?_stock settings
  have hisStart := isStart_of_start hstart
  have hnobody : ∀ q ∈ requestsOf ({ carrier := .link {} } : Access Receiver).carrier.subscriptions,
      isForTap q = true := fun q hq => absurd hq List.not_mem_nil
  generalize hwake : (⟨"rhasspy/wake-word/detected", [], .atLeastOnce⟩ : Message) = wake
  generalize hevent : (⟨.wakeDetected, []⟩ : Event) = e
  have hevents : eventsOf (begun.access.carrier.subscriptions.deliveries wake) = [e] := by
    rw [eventsOf_of_start hstart hnobody, ← hwake, ← hevent]
    decide +kernel
  have hinbox : begun.inbox = { capacity := 1 } := hisStart.inbox
  -- the wake word comes twice
  obtain ⟨m, first, hone, hfirst⟩ := exists_happens_delivered (by rw [hinbox]) hevents
  have hinbox' : first.inbox = { capacity := 1, items := [e] } := by
    rw [hfirst.inbox, hinbox]
    rfl
  rw [← hfirst.access] at hevents
  obtain ⟨m', second, htwo, hsecond⟩ := exists_happens_delivered (by rw [hinbox']) hevents
  have hinbox'' : second.inbox = { capacity := 1, items := [e], overflows := 1 } := by
    rw [hsecond.inbox, hinbox']
    rfl
  -- the worker turns to the one that has found a place
  have hjob : second.worker.job = .waiting := by
    rw [hsecond.worker, hfirst.worker, hisStart.worker]
  have hgoing : second.isStopping = false := by
    rw [hsecond.isStopping, hfirst.isStopping, hisStart.unstopped]
  have htake : second.inbox.take? = some (e, { capacity := 1, overflows := 1 }) := by
    rw [hinbox'']
    rfl
  have hstep : second.workStep? = some ({ second with
      inbox := { capacity := 1, overflows := 1 } }.spend.took
        (second.worker.handle e second.now)) := by
    simp [workStep?, lookStep?, hjob, hgoing, htake]
  have hreaches := ((Reaches.start.next hone).next htwo).next
    (.work hstep (.handle hjob hgoing htake))
  obtain ⟨-, hentries, -, -, hlosses, -⟩ :=
    queue_is_accounted_for hnobody hstart hreaches
  refine ⟨begun, access', _, _, hstart, hreaches, ?_, ?_, rfl, hlosses.trans ?_⟩
  · simp [List.countP_cons, Incident.isDelivery, Function.comp_def]
  · simp [List.filterMap_cons, Incident.taken?, Function.comp_def]
  · simp [Incident.isLoss, Function.comp_def, Inbox.free, hinbox, hinbox']

end Site

end VoiceTurn.Conductor
