import Mathlib.Tactic.Lemma
import Mathlib.Tactic.SplitIfs
import VoiceTurn.Proofs.Conductor.Deeds
import VoiceTurn.Proofs.Tap.Flow

/-!
# A conductor with taps

A conductor and the taps beside it are left to any sequence of deeds: those of the conductor, steps
of each tap, and taps that are attached, detached and abandoned, in any order (`Rig.perform`). The
table stays orderly: every tap that is held has its subscriptions under the numbers of its handle,
and nobody else has them (`Rig.IsSound.run`). What a site does by itself is made of such deeds
(`Rig.leads_operation`).
-/

namespace VoiceTurn.Conductor

open Bus (Access Carrier Failure Message Request Subscriptions)
open Topic (Registry)

/-! ## Rigs -/

/-- A tap that somebody has attached and not detached, with all that it has been attached with. -/
structure Attachment where
  handle : TapHandle
  registry : Registry
  capacity : Nat
  sink : Tap.Sink

namespace Attachment

/-- The tap as it was before its first record. -/
def tap (a : Attachment) : Tap := .withCapacity a.capacity a.sink

def part (a : Attachment) : Part := .tap a.handle.index

/-- The table holds the subscriptions of `tapRequests`, under the numbers in the handle. -/
structure IsHeld (a : Attachment) (t : Subscriptions Receiver) : Prop where
  ids : idsOf t a.part = a.handle.subscriptions
  requests : requestsFor t a.part = Site.tapRequests a.registry a.handle.index

end Attachment

lemma part_of_mem_tapRequests {r : Registry} {index : Nat} :
    ∀ q ∈ Site.tapRequests r index, q.receiver.part = .tap index := by
  intro q hq
  obtain ⟨c, -, rfl⟩ := List.mem_map.1 hq
  rfl

lemma part_of_mem_inboxRequests {r : Registry} {qos : Bus.Qos} :
    ∀ q ∈ Site.inboxRequests r qos, q.receiver.part = .worker := by
  intro q hq
  obtain ⟨c, -, rfl⟩ := List.mem_map.1 hq
  rfl

/-- Every subscription in a table belongs to the inbox or to one of so many taps. The inbox has
those with the numbers `own`, and each tap that is held has its own. -/
structure IsOrderly (t : Subscriptions Receiver) (taps : Nat) (own : List Nat)
    (held : List Attachment) : Prop where
  numbered : t.IsNumbered
  placed : ∀ e ∈ t.entries, ∀ i, e.receiver.part = .tap i → i < taps
  inbox : ∀ id ∈ own, id ∈ idsOf t .worker
  complete : ∀ a ∈ held, a.IsHeld t
  apart : (held.map (·.handle.index)).Nodup

namespace IsOrderly

variable {t : Subscriptions Receiver} {taps : Nat} {own : List Nat} {held : List Attachment}

lemma of_entries_eq_nil (hnone : t.entries = []) : IsOrderly t 0 [] [] where
  numbered := by
    rw [Subscriptions.IsNumbered, Subscriptions.ids, hnone]
    exact List.nil_sublist _
  placed := by
    rw [hnone]
    exact List.forall_mem_nil _
  inbox := List.forall_mem_nil _
  complete := List.forall_mem_nil _
  apart := List.nodup_nil

lemma entriesOf_eq_nil (h : IsOrderly t taps own held) : entriesOf t (.tap taps) = [] := by
  rw [entriesOf, List.filter_eq_nil_iff]
  intro e he hpart
  exact Nat.lt_irrefl _ (h.placed e he _ (of_decide_eq_true hpart))

lemma index_lt (h : IsOrderly t taps own held) {a : Attachment} (ha : a ∈ held) :
    a.handle.index < taps := by
  have hsome : Site.tapRequests a.registry a.handle.index ≠ [] := nofun
  rw [← (h.complete a ha).requests, requestsFor, ne_eq, List.map_eq_nil_iff] at hsome
  obtain ⟨e, he⟩ := List.exists_mem_of_ne_nil _ hsome
  obtain ⟨he, hpart⟩ := List.mem_filter.1 he
  exact h.placed e he _ (of_decide_eq_true hpart)

/-- Two places hold different taps. -/
lemma part_ne (h : IsOrderly t taps own held) {a b : Attachment} {place : Nat}
    (ha : held[place]? = some a) (hb : b ∈ held.eraseIdx place) : b.part ≠ a.part := by
  intro heq
  obtain ⟨i, hi, hb⟩ := List.mem_eraseIdx_iff_getElem?.1 hb
  have hindex : (held.map (·.handle.index))[i]? = (held.map (·.handle.index))[place]? := by
    rw [List.getElem?_map, List.getElem?_map, ha, hb, Option.map_some, Option.map_some,
      Part.tap.inj heq]
  refine hi ((List.getElem?_inj ?_ h.apart).1 hindex)
  rw [List.length_map]
  exact (List.getElem?_eq_some_iff.1 hb).1

lemma forget (h : IsOrderly t taps own held) {held' : List Attachment}
    (hheld : held'.Sublist held) : IsOrderly t taps own held' :=
  ⟨h.numbered, h.placed, h.inbox, fun a ha => h.complete a (hheld.subset ha),
    h.apart.sublist (hheld.map _)⟩

/-- Subscriptions of the part `p` are removed, and nothing is left in `held'` that belongs to it. -/
lemma removeAll (h : IsOrderly t taps own held) {p : Part} {gone own' : List Nat}
    {held' : List Attachment} (hgone : ∀ id ∈ gone, id ∈ idsOf t p)
    (hown : ∀ id ∈ own', id ∈ own ∧ p ≠ .worker) (hheld : held'.Sublist held)
    (hp : ∀ a ∈ held', a.part ≠ p) : IsOrderly (t.removeAll gone) taps own' held' where
  numbered := h.numbered.removeAll gone
  placed := fun e he => h.placed e (Subscriptions.mem_removeAll.1 he).1
  inbox := fun id hid => by
    obtain ⟨hmem, hne⟩ := hown id hid
    rw [idsOf,
      entriesOf_removeAll_of_disjoint fun i hi => not_mem_idsOf h.numbered hne (hgone i hi)]
    exact h.inbox id hmem
  complete := fun a ha => by
    have hentries : entriesOf (t.removeAll gone) a.part = entriesOf t a.part :=
      entriesOf_removeAll_of_disjoint fun i hi =>
        not_mem_idsOf h.numbered (hp a ha).symm (hgone i hi)
    have hold := h.complete a (hheld.subset ha)
    exact ⟨by rw [idsOf, hentries]; exact hold.ids,
      by rw [requestsFor, hentries]; exact hold.requests⟩
  apart := h.apart.sublist (hheld.map _)

section
variable (h : IsOrderly t taps own held) {requests : List (Request Receiver)} {gone : List Nat}
  (hrequests : ∀ q ∈ requests, q.receiver.part = .tap taps) (hgone : ∀ id ∈ gone, t.issued < id)
include h hrequests hgone

/-- Subscriptions for the next tap, whether or not they stay, are nothing to the other parts. -/
lemma entriesOf_grantAll {p : Part} (hp : p ≠ .tap taps) :
    entriesOf ((t.grantAll requests).removeAll gone) p = entriesOf t p := by
  have hgranted : entriesOf (t.grantAll requests) p = entriesOf t p :=
    entriesOf_grantAll_of_ne hp hrequests
  rw [← hgranted]
  refine entriesOf_removeAll_of_disjoint fun id hid hmem => ?_
  rw [idsOf, hgranted] at hmem
  obtain ⟨e, he, -, rfl⟩ := mem_idsOf.1 hmem
  -- numbers in force have been issued before, those that are taken out have not
  have hle := h.numbered.id_le he
  have hlt := hgone _ hid
  omega

lemma grantAll : IsOrderly ((t.grantAll requests).removeAll gone) (taps + 1) own held := by
  have hentries {p : Part} (hp : p ≠ .tap taps) := h.entriesOf_grantAll hrequests hgone hp
  have hne {a : Attachment} (ha : a ∈ held) : a.part ≠ .tap taps := fun heq => by
    have hlt := h.index_lt ha
    rw [Part.tap.inj heq] at hlt
    exact Nat.lt_irrefl _ hlt
  refine ⟨(h.numbered.grantAll requests).removeAll gone, fun e he i hi => ?_, fun id hid => ?_,
    fun a ha => ?_, h.apart⟩
  · rcases Subscriptions.exists_of_mem_grantAll (Subscriptions.mem_removeAll.1 he).1 with
      hold | ⟨hnew, -⟩
    · exact Nat.lt_succ_of_lt (h.placed e hold i hi)
    · have hpart := hrequests _ hnew
      rw [Part.tap.inj (hi.symm.trans hpart)]
      exact Nat.lt_succ_self _
  · rw [idsOf, hentries (tap_ne_worker taps).symm]
    exact h.inbox id hid
  · have hold := h.complete a ha
    exact ⟨by rw [idsOf, hentries (hne ha)]; exact hold.ids,
      by rw [requestsFor, hentries (hne ha)]; exact hold.requests⟩

end

/-- With all of `tapRequests` granted, the next tap is held. -/
lemma attach (h : IsOrderly t taps own held) (r : Registry) (capacity : Nat) (sink : Tap.Sink) :
    IsOrderly (t.grantAll (Site.tapRequests r taps)) (taps + 1) own (held ++
      [⟨⟨taps, List.range' (t.issued + 1) (Site.tapRequests r taps).length⟩, r, capacity,
        sink⟩]) := by
  have hgranted := h.grantAll (part_of_mem_tapRequests (r := r)) (List.forall_mem_nil _)
  rw [Subscriptions.removeAll_nil] at hgranted
  refine ⟨hgranted.numbered, hgranted.placed, hgranted.inbox, fun a ha => ?_, ?_⟩
  · rcases List.mem_append.1 ha with ha | ha
    · exact hgranted.complete a ha
    · rw [List.mem_singleton.1 ha]
      have hbefore := h.entriesOf_eq_nil
      refine ⟨?_, ?_⟩
      · rw [Attachment.part, idsOf_grantAll_self part_of_mem_tapRequests, idsOf, hbefore]
        rfl
      · rw [Attachment.part, requestsFor_grantAll_self part_of_mem_tapRequests, requestsFor,
          hbefore]
        rfl
  · rw [List.map_append, List.nodup_append]
    refine ⟨h.apart, List.nodup_singleton _, fun i hi j hj => ?_⟩
    obtain ⟨a, ha, rfl⟩ := List.mem_map.1 hi
    rw [List.mem_singleton.1 hj]
    exact Nat.ne_of_lt (h.index_lt ha)

/-- With `requests` of the worker granted, the inbox has the next numbers. -/
lemma grantInbox (h : IsOrderly t taps [] held) {requests : List (Request Receiver)}
    (hrequests : ∀ q ∈ requests, q.receiver.part = .worker)
    (hworker : entriesOf t .worker = []) :
    IsOrderly (t.grantAll requests) taps (List.range' (t.issued + 1) requests.length) held := by
  have hentries (i : Nat) : entriesOf (t.grantAll requests) (.tap i) = entriesOf t (.tap i) :=
    entriesOf_grantAll_of_ne (tap_ne_worker i) hrequests
  refine ⟨h.numbered.grantAll requests, fun e he i hi => ?_, fun id hid => ?_, fun a ha => ?_,
    h.apart⟩
  · rcases Subscriptions.exists_of_mem_grantAll he with hold | ⟨hnew, -⟩
    · exact h.placed e hold i hi
    · have hpart : e.receiver.part = .worker := hrequests _ hnew
      rw [hpart] at hi
      cases hi
  · rw [idsOf_grantAll_self hrequests, idsOf, hworker]
    exact hid
  · have hold := h.complete a ha
    refine ⟨?_, ?_⟩
    · rw [idsOf, Attachment.part, hentries]
      exact hold.ids
    · rw [requestsFor, Attachment.part, hentries]
      exact hold.requests

end IsOrderly

/-- What is held of a tap after `attachTo`. -/
def attachmentOf (result : Except Failure TapHandle) (r : Registry) (capacity : Nat)
    (sink : Tap.Sink) : List Attachment :=
  match result with
  | .ok handle => [⟨handle, r, capacity, sink⟩]
  | .error _ => []

/-- The `subscribeAll` for the next tap, whether or not it succeeds, is nothing to the other
parts. -/
lemma IsOrderly.subscribeAll {access access' : Access Receiver} {taps : Nat} {own : List Nat}
    {held : List Attachment} {r : Registry} {answer : Except Failure (List Nat)}
    (h : IsOrderly access.carrier.subscriptions taps own held)
    (hsubscribe : access.subscribeAll [] (Site.tapRequests r taps) = (answer, access')) :
    access'.carrier = access.carrier.withSubscriptions access'.carrier.subscriptions ∧
      (access.IsReliable → access'.IsReliable) ∧
      (∀ p, p ≠ .tap taps →
        entriesOf access'.carrier.subscriptions p = entriesOf access.carrier.subscriptions p) ∧
      IsOrderly access'.carrier.subscriptions (taps + 1) own held := by
  obtain ⟨granted, gone, hgranted, hgone, hcarrier, -, hreliable⟩ :=
    Access.subscribeAll_spec hsubscribe
  have hrequests : ∀ q ∈ granted, q.receiver.part = .tap taps :=
    fun q hq => part_of_mem_tapRequests q (hgranted.subset hq)
  have hnew : ∀ id ∈ gone, access.carrier.subscriptions.issued < id :=
    fun id hid => (hgone id hid).resolve_left List.not_mem_nil
  rw [hcarrier, Carrier.subscriptions_withSubscriptions]
  exact ⟨rfl, hreliable, fun p hp => h.entriesOf_grantAll hrequests hnew hp,
    h.grantAll hrequests hnew⟩

/-- An `attachTo` changes nothing but the taps and the table, which `IsOrderly` afterwards. -/
lemma IsOrderly.attachTo {access access' : Access Receiver} {taps taps' : List Tap} {own : List Nat}
    {held : List Attachment} {r : Registry} {capacity : Nat} {sink : Tap.Sink}
    {result : Except Failure TapHandle}
    (h : IsOrderly access.carrier.subscriptions taps.length own held)
    (hattach :
      Site.attachTo access taps r (.withCapacity capacity sink) = (result, access', taps')) :
    access'.carrier = access.carrier.withSubscriptions access'.carrier.subscriptions ∧
      (access.IsReliable → access'.IsReliable) ∧
      (∃ tap, taps' = taps ++ [tap] ∧ ∀ a ∈ attachmentOf result r capacity sink,
        a.handle.index = taps.length ∧ a.tap = tap) ∧
      (∀ p, p ≠ .tap taps.length →
        entriesOf access'.carrier.subscriptions p = entriesOf access.carrier.subscriptions p) ∧
      IsOrderly access'.carrier.subscriptions taps'.length own
        (held ++ attachmentOf result r capacity sink) := by
  rcases Site.attachTo_cases hattach with ⟨f, hsubscribe, rfl, rfl⟩ | ⟨ids, hsubscribe, rfl, rfl⟩
  · obtain ⟨hself, hreliable, hothers, horderly⟩ := h.subscribeAll hsubscribe
    refine ⟨hself, hreliable, ⟨_, rfl, List.forall_mem_nil _⟩, hothers, ?_⟩
    rw [attachmentOf, List.append_nil, List.length_append]
    exact horderly
  · obtain ⟨hself, hreliable, hothers, -⟩ := h.subscribeAll hsubscribe
    obtain ⟨htable, rfl⟩ := Access.subscriptions_of_subscribeAll_ok hsubscribe
    refine ⟨hself, hreliable, ⟨_, rfl, fun a ha => ?_⟩, hothers, ?_⟩
    · rw [List.mem_singleton.1 ha]
      exact ⟨rfl, rfl⟩
    · rw [htable, attachmentOf, List.length_append]
      exact h.attach r capacity sink

/-- An `attachTap` at a conductor at work changes no more. -/
lemma IsOrderly.attachTap {s : Site} {held : List Attachment}
    (h : IsOrderly s.access.carrier.subscriptions s.taps.length s.subscriptions held)
    (r : Registry) (capacity : Nat) (sink : Tap.Sink) :
    ∃ result access tap ready, s.attachTap r (.withCapacity capacity sink) =
        (result, { s with access, taps := s.taps ++ [tap], ready }) ∧
      access.carrier = s.access.carrier.withSubscriptions access.carrier.subscriptions ∧
      (s.access.IsReliable → access.IsReliable) ∧
      (∀ a ∈ attachmentOf result r capacity sink, a.handle.index = s.taps.length ∧ a.tap = tap) ∧
      (∀ p, p ≠ .tap s.taps.length →
        entriesOf access.carrier.subscriptions p = entriesOf s.access.carrier.subscriptions p) ∧
      IsOrderly access.carrier.subscriptions (s.taps ++ [tap]).length s.subscriptions
        (held ++ attachmentOf result r capacity sink) := by
  unfold Site.attachTap
  cases hattach : Site.attachTo s.access s.taps r (.withCapacity capacity sink) with
  | mk result rest =>
    obtain ⟨access, taps⟩ := rest
    obtain ⟨hcarrier, hreliable, ⟨tap, rfl, hfresh⟩, hothers, horderly⟩ := h.attachTo hattach
    cases result with
    | error f =>
      exact ⟨_, access, tap, s.ready, rfl, hcarrier, hreliable, hfresh, hothers, horderly⟩
    | ok handle =>
      obtain ⟨ready, hready⟩ :=
        Site.wake_eq { s with access, taps := s.taps ++ [tap] } (.tap handle.index)
      refine ⟨_, access, tap, ready, ?_, hcarrier, hreliable, hfresh, hothers, horderly⟩
      simp only [hready]

/-- Taps that `attachTo` has put on a bus before its conductor starts, whether or not each attempt
has succeeded. -/
inductive Attached (bare : Access Receiver) :
    Access Receiver → List Tap → List Attachment → Prop
  | none : Attached bare bare [] []
  | next {access access' : Access Receiver} {taps taps' : List Tap} {held : List Attachment}
      {r : Registry} {capacity : Nat} {sink : Tap.Sink} {result : Except Failure TapHandle}
      (h : Attached bare access taps held)
      (hattach : Site.attachTo access taps r (.withCapacity capacity sink) =
        (result, access', taps')) :
      Attached bare access' taps' (held ++ attachmentOf result r capacity sink)

section
variable {bare access : Access Receiver} {taps : List Tap} {held : List Attachment}

/-- Taps that are `Attached` change nothing but the table, in which there is nothing for the inbox
yet. -/
lemma Attached.spec (h : Attached bare access taps held)
    (hbare : bare.carrier.subscriptions.entries = []) :
    access.carrier.withSubscriptions {} = bare.carrier.withSubscriptions {} ∧
      (bare.IsReliable → access.IsReliable) ∧
      entriesOf access.carrier.subscriptions .worker = [] ∧
      IsOrderly access.carrier.subscriptions taps.length [] held := by
  induction h with
  | none =>
    have hnone (p : Part) : entriesOf bare.carrier.subscriptions p = [] := by
      rw [entriesOf, hbare, List.filter_nil]
    exact ⟨rfl, id, hnone .worker, .of_entries_eq_nil hbare⟩
  | next _ hattach ih =>
    obtain ⟨hbus, hreliable, hworker, horderly⟩ := ih
    obtain ⟨hcarrier, hreliable', -, hothers, horderly'⟩ := horderly.attachTo hattach
    refine ⟨?_, fun hb => hreliable' (hreliable hb), ?_, horderly'⟩
    · rw [hcarrier, Carrier.withSubscriptions_withSubscriptions, hbus]
    · rw [hothers .worker (tap_ne_worker _).symm, hworker]

/-- A conductor that starts beside taps takes the next numbers for its inbox. -/
lemma Attached.start (h : Attached bare access taps held)
    (hbare : bare.carrier.subscriptions.entries = []) {retry : Bus.Retry} {r : Registry}
    {settings : Settings} {site : Site} {access' : Access Receiver}
    (hstart : Site.start access taps retry r settings = (.ok site, access')) :
    site.access.carrier.withSubscriptions {} = bare.carrier.withSubscriptions {} ∧
      (bare.IsReliable → site.access.IsReliable) ∧
      requestsFor site.access.carrier.subscriptions .worker =
        Site.inboxRequests r settings.bus.inboundQos ∧
      site.subscriptions = idsOf site.access.carrier.subscriptions .worker ∧
      IsOrderly site.access.carrier.subscriptions site.taps.length site.subscriptions held := by
  obtain ⟨hbus, hreliable, hworker, horderly⟩ := h.spec hbare
  rcases Site.start_cases hstart with
    ⟨_, _, -, heq, -⟩ | ⟨-, ⟨_, -, heq⟩ | ⟨_, hsubscribe, heq, rfl, rfl⟩⟩
  · cases heq
  · cases heq
  cases heq
  obtain ⟨granted, gone, -, -, hcarrier, -, hreliable'⟩ := Access.subscribeAll_spec hsubscribe
  obtain ⟨htable, hids⟩ := Access.subscriptions_of_subscribeAll_ok hsubscribe
  have hrequests : ∀ q ∈ Site.inboxRequests r settings.bus.inboundQos,
      q.receiver.part = .worker := part_of_mem_inboxRequests
  refine ⟨?_, fun hb => hreliable' (hreliable hb), ?_, ?_, ?_⟩
  · rw [hcarrier, Carrier.withSubscriptions_withSubscriptions, hbus]
  · rw [htable, requestsFor_grantAll_self hrequests, requestsFor, hworker]
    rfl
  · rw [hids, htable, idsOf_grantAll_self hrequests, idsOf, hworker]
    rfl
  · rw [hids, htable]
    exact horderly.grantInbox hrequests hworker

end

/-- With a valid registry a tap can be attached to an open bus that `IsReliable`, and then a
conductor starts beside it. -/
lemma exists_start_beside_tap (bare : Access Receiver) {r : Registry} (hr : r.defect? = none)
    (hopen : bare.carrier.isClosed = false) (hreliable : bare.IsReliable) (capacity : Nat)
    (sink : Tap.Sink) (retry : Bus.Retry) (settings : Settings) :
    ∃ ids access site access',
      Attached bare access [.withCapacity capacity sink] [⟨⟨0, ids⟩, r, capacity, sink⟩] ∧
      Site.start access [.withCapacity capacity sink] retry r settings = (.ok site, access') ∧
      site.access.carrier = bare.carrier.withSubscriptions site.access.carrier.subscriptions := by
  obtain ⟨ids, access, hattach, hreliable', hcarrier, -⟩ :=
    Site.exists_attachTo bare hr hopen hreliable [] (.withCapacity capacity sink)
  have hopen' : access.carrier.isClosed = false := by
    rw [hcarrier, Carrier.isClosed_withSubscriptions, hopen]
  obtain ⟨site, access', hstart, hsite, -⟩ := Site.exists_start_of_open access hr hopen' hreliable'
    [.withCapacity capacity sink] retry settings
  refine ⟨ids, access, site, access', .next .none hattach, hstart, ?_⟩
  rw [hsite, Carrier.subscriptions_withSubscriptions, hcarrier,
    Carrier.withSubscriptions_withSubscriptions]

/-- A site with the taps that are held. -/
structure Rig where
  site : Site
  attachments : List Attachment := []

namespace Rig

/-- What is done by a site with taps or to it. -/
inductive Deed where
  /-- A `Site.Deed`, which has nothing to do with taps. -/
  | conductor (d : Site.Deed)
  | attach (r : Registry) (capacity : Nat) (sink : Tap.Sink)
  /-- A tap makes a `Tap.step?`, if it can. -/
  | record (index : Nat)
  /-- The tap that is held at `place` is detached: its subscriptions are removed, and it is told to
  drain. -/
  | detach (place : Nat)
  /-- The tap that is held at `place` is told to drain, and keeps its subscriptions. -/
  | abandon (place : Nat)

/-- The `Site.Deed` that a deed is, if it has nothing to do with taps. -/
def Deed.ofConductor? : Deed → Option Site.Deed
  | conductor d => some d
  | attach .. | record _ | detach _ | abandon _ => none

def perform (g : Rig) : Deed → Rig
  | .conductor d => { g with site := g.site.perform d }
  | .attach r capacity sink =>
    let (result, site) := g.site.attachTap r (.withCapacity capacity sink)
    ⟨site, g.attachments ++ attachmentOf result r capacity sink⟩
  | .record i => { g with site := (g.site.tapStep? i).getD g.site }
  | .detach k =>
    match g.attachments[k]? with
    | some a => ⟨(g.site.releaseTap a.handle).2, g.attachments.eraseIdx k⟩
    | none => g
  | .abandon k =>
    match g.attachments[k]? with
    | some a => ⟨g.site.abandonTap a.handle, g.attachments.eraseIdx k⟩
    | none => g

def run (g : Rig) (deeds : List Deed) : Rig := deeds.foldl perform g

def messagesOf (g : Rig) : Deed → List Message
  | .conductor d => g.site.messagesOf d
  | .attach .. | .record _ | .detach _ | .abandon _ => []

def messages (g : Rig) : List Deed → List Message
  | [] => []
  | d :: deeds => g.messagesOf d ++ (g.perform d).messages deeds

/-- The table of a rig `IsOrderly`. -/
def IsSound (g : Rig) : Prop :=
  IsOrderly g.site.access.carrier.subscriptions g.site.taps.length g.site.subscriptions
    g.attachments

variable {g : Rig}

lemma IsSound.conductor (h : g.IsSound) (d : Site.Deed) : (g.perform (.conductor d)).IsSound := by
  by_cases hd : d = .unsubscribe
  · subst hd
    obtain ⟨gone, drill, hgone, haccess, -, -⟩ :=
      g.site.access.unsubscribeAll_spec g.site.subscriptions
    show IsOrderly
      (g.site.access.unsubscribeAll g.site.subscriptions).2.carrier.subscriptions _ [] _
    rw [haccess, Carrier.subscriptions_withSubscriptions]
    exact h.removeAll (fun id hid => h.inbox id (hgone id hid)) (List.forall_mem_nil _)
      (List.Sublist.refl _) (fun a _ => tap_ne_worker a.handle.index)
  · have hpasses := g.site.passes_perform hd
    unfold IsSound perform
    rw [hpasses.table, hpasses.taps, length_handed, hpasses.subscriptions]
    exact h

/-- What a deed that has to do with a tap can change: the table, the taps and the order of the
parts. The inbox keeps its subscriptions, and no tap that is there gets further ones. -/
structure MovesTaps (g g' : Rig) : Prop where
  site : ∃ access taps ready left, g'.site = { g.site with access, taps, ready, left }
  bus : g'.site.access.carrier =
    g.site.access.carrier.withSubscriptions g'.site.access.carrier.subscriptions
  reliable : g.site.access.IsReliable → g'.site.access.IsReliable
  inbox : entriesOf g'.site.access.carrier.subscriptions .worker =
    entriesOf g.site.access.carrier.subscriptions .worker
  taps : ∀ i < g.site.taps.length,
    (entriesOf g'.site.access.carrier.subscriptions (.tap i)).Sublist
      (entriesOf g.site.access.carrier.subscriptions (.tap i))
  sound : g'.IsSound

lemma MovesTaps.of_access {g' : Rig}
    (hsite : ∃ taps ready left, g'.site = { g.site with taps, ready, left }) (hsound : g'.IsSound) :
    g.MovesTaps g' := by
  obtain ⟨taps, ready, left, hsite⟩ := hsite
  have haccess : g'.site.access = g.site.access := by rw [hsite]
  refine ⟨⟨g.site.access, taps, ready, left, hsite⟩, ?_, fun hr => haccess ▸ hr, by rw [haccess],
    fun i _ => ?_, hsound⟩
  · rw [haccess, Carrier.withSubscriptions_subscriptions]
  · rw [haccess]

lemma movesTaps_attach (h : g.IsSound) (r : Registry) (capacity : Nat) (sink : Tap.Sink) :
    g.MovesTaps (g.perform (.attach r capacity sink)) := by
  obtain ⟨result, access, tap, ready, hattach, hcarrier, hreliable, -, hothers, horderly⟩ :=
    IsOrderly.attachTap h r capacity sink
  simp only [perform, hattach]
  refine ⟨⟨access, _, ready, g.site.left, rfl⟩, hcarrier, hreliable,
    hothers .worker (tap_ne_worker _).symm, fun i hi => ?_, horderly⟩
  have hne : Part.tap i ≠ .tap g.site.taps.length := fun heq => Nat.ne_of_lt hi (Part.tap.inj heq)
  rw [hothers _ hne]

lemma movesTaps_detach (h : g.IsSound) {place : Nat} {a : Attachment}
    (hplace : g.attachments[place]? = some a) : g.MovesTaps (g.perform (.detach place)) := by
  have hids := (h.complete a (List.mem_of_getElem? hplace)).ids
  obtain ⟨gone, drill, hgone, haccess, -, hreliable⟩ :=
    g.site.access.unsubscribeAll_spec a.handle.subscriptions
  have hpart : ∀ id ∈ gone, id ∈ idsOf g.site.access.carrier.subscriptions a.part :=
    fun id hid => hids ▸ hgone id hid
  obtain ⟨ready, hrelease⟩ := g.site.releaseTap_eq a.handle
  simp only [perform, hplace, hrelease, haccess]
  refine ⟨⟨_, _, ready, g.site.left, rfl⟩, ?_, fun hr => (hreliable hr).2, ?_, fun i _ => ?_, ?_⟩
  · rw [Carrier.subscriptions_withSubscriptions]
  · rw [Carrier.subscriptions_withSubscriptions]
    exact entriesOf_removeAll_of_disjoint fun id hid =>
      not_mem_idsOf h.numbered (tap_ne_worker a.handle.index) (hpart id hid)
  · rw [Carrier.subscriptions_withSubscriptions, entriesOf_removeAll]
    exact List.filter_sublist
  · simp only [IsSound, List.length_modify, Carrier.subscriptions_withSubscriptions]
    exact h.removeAll hpart (fun id hid => ⟨hid, tap_ne_worker a.handle.index⟩)
      (List.eraseIdx_sublist ..) fun b hb => h.part_ne hplace hb

lemma movesTaps_perform (h : g.IsSound) {d : Deed} (hd : d.ofConductor? = none) :
    g.MovesTaps (g.perform d) := by
  have hself : g.MovesTaps g := .of_access ⟨g.site.taps, g.site.ready, g.site.left, rfl⟩ h
  cases d with
  | conductor d => cases hd
  | attach r capacity sink => exact movesTaps_attach h r capacity sink
  | record i =>
    obtain ⟨left, hrecord⟩ := g.site.tapStep?_getD i
    refine .of_access ⟨_, g.site.ready, left, hrecord⟩ ?_
    simp only [IsSound, perform, hrecord, List.length_modify]
    exact h
  | detach k =>
    cases hplace : g.attachments[k]? with
    | none => simpa only [perform, hplace] using hself
    | some a => exact movesTaps_detach h hplace
  | abandon k =>
    cases hplace : g.attachments[k]? with
    | none => simpa only [perform, hplace] using hself
    | some a =>
      obtain ⟨ready, habandon⟩ := g.site.abandonTap_eq a.handle
      simp only [perform, hplace, habandon]
      refine .of_access ⟨_, ready, g.site.left, rfl⟩ ?_
      simp only [IsSound, List.length_modify]
      exact h.forget (List.eraseIdx_sublist ..)

lemma IsSound.perform (h : g.IsSound) (d : Deed) : (g.perform d).IsSound := by
  cases hd : d.ofConductor? with
  | none => exact (movesTaps_perform h hd).sound
  | some d' =>
    cases d with
    | conductor d => exact h.conductor d
    | attach | record | detach | abandon => cases hd

lemma IsSound.run (h : g.IsSound) (deeds : List Deed) : (g.run deeds).IsSound := by
  induction deeds generalizing g with
  | nil => exact h
  | cons d deeds ih => exact ih (h.perform d)

/-- What can become of a bus that nobody has used, with the taps that are attached to it and the
conductor that is put at work on it, if one is. -/
inductive IsReached : Rig → Prop
  /-- Nobody is at work on the bus. -/
  | idle {site : Site} (hbare : site.access.carrier.subscriptions.entries = [])
      (htaps : site.taps = []) (hown : site.subscriptions = []) : IsReached ⟨site, []⟩
  /-- A conductor starts, beside taps that may have been attached before. -/
  | start {bare access access' : Access Receiver} {taps : List Tap} {held : List Attachment}
      {retry : Bus.Retry} {r : Registry} {settings : Settings} {site : Site}
      (hbare : bare.carrier.subscriptions.entries = []) (hattached : Attached bare access taps held)
      (hstart : Site.start access taps retry r settings = (.ok site, access')) :
      IsReached ⟨site, held⟩
  | perform {g : Rig} (h : IsReached g) (d : Deed) : IsReached (g.perform d)

lemma IsReached.isSound (h : g.IsReached) : g.IsSound := by
  induction h with
  | idle hbare htaps hown =>
    unfold IsSound
    rw [htaps, hown]
    exact .of_entries_eq_nil hbare
  | start hbare hattached hstart =>
    obtain ⟨-, -, -, -, hsound⟩ := hattached.start hbare hstart
    exact hsound
  | perform _ d ih => exact ih.perform d

/-! ## Operations are made of deeds -/

/-- A site gets from `s` to `s'` by deeds, while the same taps are held. -/
def Leads (s s' : Site) : Prop :=
  ∀ held : List Attachment, ∃ deeds, Rig.run ⟨s, held⟩ deeds = ⟨s', held⟩

variable {s s' s'' : Site}

lemma Leads.refl (s : Site) : Leads s s := fun _ => ⟨[], rfl⟩

lemma Leads.trans (h : Leads s s') (h' : Leads s' s'') : Leads s s'' := fun held => by
  obtain ⟨deeds, hdeeds⟩ := h held
  obtain ⟨deeds', hdeeds'⟩ := h' held
  refine ⟨deeds ++ deeds', ?_⟩
  rw [run, List.foldl_append]
  exact (congrArg (run · deeds') hdeeds).trans hdeeds'

lemma leads_perform (s : Site) (d : Site.Deed) : Leads s (s.perform d) :=
  fun _ => ⟨[.conductor d], rfl⟩

lemma leads_turn (s : Site) (ready yielded : List Part) (left : Nat) :
    Leads s { s with ready, yielded, left } := leads_perform s (.turn ready yielded left)

lemma leads_partStep? {p : Part} (h : s.partStep? p = some s') : Leads s s' := by
  cases p with
  | worker =>
    have hwork : s.perform .work = s' := congrArg (·.getD s) h
    rw [← hwork]
    exact leads_perform s .work
  | tap i =>
    refine fun held => ⟨[.record i], ?_⟩
    show Rig.mk ((s.tapStep? i).getD s) held = ⟨s', held⟩
    rw [show s.tapStep? i = some s' from h, Option.getD_some]

/-- Each `step?` is a deed. -/
lemma leads_step? (h : s.step? = some s') : Leads s s' := by
  cases Site.steps_of_step? h with
  | read hread =>
    have hperform : s.perform .read = s' := congrArg (·.getD s) hread
    rw [← hperform]
    exact leads_perform s .read
  | giveWay | rest => exact leads_turn s _ _ _
  | goOn hready hpart => exact leads_partStep? hpart

lemma leads_nextRound? (h : s.nextRound? = some s') : Leads s s' := by
  obtain ⟨-, rfl⟩ := Site.nextRound?_eq_some_iff.1 h
  exact leads_turn s _ _ _

lemma leads_finishRound (steps : Nat) (s : Site) : Leads s (World.finishRound steps s) :=
  World.finishRound_induction (P := Leads s) (fun _ _ h hstep => h.trans (leads_step? hstep))
    (fun _ _ h hround => h.trans (leads_nextRound? hround)) steps s (.refl s)

lemma leads_await (isDone : Site → Bool) (steps rounds : Nat) (s : Site) :
    Leads s (World.await isDone steps rounds s) :=
  World.await_induction (P := Leads s) (fun t h => h.trans (leads_finishRound steps t))
    (fun t _ h _ => h.trans (leads_perform t (.clock _))) isDone rounds s (.refl s)

/-- An `inject` is three deeds: lining up, waiting, and taking a place. -/
lemma leads_inject (s : Site) (e : Event) (steps : Nat) : Leads s (s.inject e steps).2 := by
  have hperform := leads_perform s (.send e)
  unfold Site.perform at hperform
  unfold Site.inject
  split
  · exact .refl s
  · next inbox hsend =>
    simp only [hsend] at hperform
    exact hperform
  · next inbox hsend =>
    simp only [hsend] at hperform
    have hawait := hperform.trans
      (leads_await (fun t : Site => t.inbox.waiting.isEmpty) steps steps { s with inbox })
    simp only
    split_ifs
    · exact hawait
    · exact hawait.trans (leads_perform _ .takePlaces)

/-- Every `Operation` is made of deeds. -/
lemma leads_operation (h : s.Operation s') : Leads s s' := by
  cases h with
  | step hstep => exact leads_step? hstep
  | nextRound hround => exact leads_nextRound? hround
  | post m => exact leads_perform s (.post m)
  | inject e steps => exact leads_inject s e steps
  | clock t => exact leads_perform s (.clock t)

end Rig

end VoiceTurn.Conductor
