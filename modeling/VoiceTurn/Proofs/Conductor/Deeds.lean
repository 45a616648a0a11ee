import Mathlib.Tactic.Lemma
import Mathlib.Tactic.SplitIfs
import VoiceTurn.Proofs.Conductor.Operation

/-!
# Deeds

What is done by a conductor, or to it, one thing at a time (`Site.perform`). Every subscription of
its bus belongs to one part of the site, and what a part gets of a message hangs on its own
subscriptions (`filter_deliveries`). `Site.Passes` says once what a deed does to the taps and to the
table: it hands messages over, and nothing else.
-/

namespace VoiceTurn.Conductor

open Bus (Access Carrier Delivery Failure Influence Message Request Subscription Subscriptions)
open Topic (Registry isMatch)

/-! ## The parts of a table -/

def Receiver.part : Receiver → Part
  | inbox _ => .worker
  | tap i _ => .tap i

lemma tap_ne_worker (index : Nat) : Part.tap index ≠ .worker := by
  intro heq
  cases heq

def entriesOf (t : Subscriptions Receiver) (p : Part) : List (Subscription Receiver) :=
  t.entries.filter (·.receiver.part = p)

/-- The requests of `entriesOf` a part. -/
def requestsFor (t : Subscriptions Receiver) (p : Part) : List (Request Receiver) :=
  (entriesOf t p).map fun e => ⟨e.filter, e.qos, e.receiver⟩

/-- The numbers of `entriesOf` a part. -/
def idsOf (t : Subscriptions Receiver) (p : Part) : List Nat := (entriesOf t p).map (·.id)

section
variable {t : Subscriptions Receiver} {p q : Part}

/-- What a part gets of a message hangs on `requestsFor` it alone. -/
lemma filter_deliveries (t : Subscriptions Receiver) (p : Part) (m : Message) :
    (t.deliveries m).filter (·.receiver.part = p) = deliveriesTo (requestsFor t p) m := by
  rw [deliveries_eq, deliveriesTo, deliveriesTo, List.filter_map, List.filter_filter, requestsFor,
    entriesOf, requestsOf, List.filter_map, List.filter_map, List.filter_filter]
  refine congrArg _ (congrArg _ (List.filter_congr fun e _ => ?_))
  exact Bool.and_comm _ _

lemma mem_idsOf {id : Nat} :
    id ∈ idsOf t p ↔ ∃ e ∈ t.entries, e.receiver.part = p ∧ e.id = id := by
  simp [idsOf, entriesOf, and_assoc]

lemma not_mem_idsOf (ht : t.IsNumbered) (hpq : p ≠ q) {id : Nat} (hid : id ∈ idsOf t p) :
    id ∉ idsOf t q := by
  intro hid'
  obtain ⟨e, he, hp, rfl⟩ := mem_idsOf.1 hid
  obtain ⟨e', he', hq, heq⟩ := mem_idsOf.1 hid'
  obtain rfl := List.inj_on_of_nodup_map ht.nodup he' he heq
  exact hpq (hp.symm.trans hq)

lemma entriesOf_removeAll (t : Subscriptions Receiver) (p : Part) (ids : List Nat) :
    entriesOf (t.removeAll ids) p = (entriesOf t p).filter (·.id ∉ ids) := by
  rw [entriesOf, entriesOf, Subscriptions.removeAll, List.filter_filter, List.filter_filter]
  exact List.filter_congr fun e _ => Bool.and_comm _ _

lemma entriesOf_removeAll_of_disjoint {ids : List Nat} (hids : ∀ id ∈ ids, id ∉ idsOf t p) :
    entriesOf (t.removeAll ids) p = entriesOf t p := by
  rw [entriesOf_removeAll, List.filter_eq_self]
  intro e he
  rw [decide_eq_true_iff]
  exact fun hmem => hids e.id hmem (List.mem_map_of_mem he)

lemma entriesOf_removeAll_idsOf : entriesOf (t.removeAll (idsOf t p)) p = [] := by
  rw [entriesOf_removeAll, List.filter_eq_nil_iff]
  intro e he hnot
  exact of_decide_eq_true hnot (List.mem_map_of_mem he)

/-- What `grantAll` adds for a part comes behind the entries that it has, under the next numbers. -/
lemma entriesOf_grantAll_self {requests : List (Request Receiver)}
    (hrequests : ∀ r ∈ requests, r.receiver.part = p) :
    entriesOf (t.grantAll requests) p = entriesOf t p ++ t.granted requests := by
  rw [entriesOf, entriesOf, Subscriptions.entries_grantAll, List.filter_append]
  refine congrArg _ (List.filter_eq_self.2 fun e he => ?_)
  exact decide_eq_true (hrequests _ (Subscriptions.request_mem_of_mem_granted he))

lemma requestsFor_grantAll_self {requests : List (Request Receiver)}
    (hrequests : ∀ r ∈ requests, r.receiver.part = p) :
    requestsFor (t.grantAll requests) p = requestsFor t p ++ requests := by
  rw [requestsFor, entriesOf_grantAll_self hrequests, List.map_append,
    Subscriptions.requests_granted]
  rfl

lemma idsOf_grantAll_self {requests : List (Request Receiver)}
    (hrequests : ∀ r ∈ requests, r.receiver.part = p) :
    idsOf (t.grantAll requests) p = idsOf t p ++ List.range' (t.issued + 1) requests.length := by
  rw [idsOf, entriesOf_grantAll_self hrequests, List.map_append, Subscriptions.ids_granted]
  rfl

/-- What `grantAll` adds for one part is nothing to the others. -/
lemma entriesOf_grantAll_of_ne {requests : List (Request Receiver)} (hpq : p ≠ q)
    (hrequests : ∀ r ∈ requests, r.receiver.part = q) :
    entriesOf (t.grantAll requests) p = entriesOf t p := by
  rw [entriesOf, entriesOf, Subscriptions.entries_grantAll, List.filter_append]
  have hnone : (t.granted requests).filter (·.receiver.part = p) = [] := by
    refine List.filter_eq_nil_iff.2 fun e he hp => ?_
    have hq := hrequests _ (Subscriptions.request_mem_of_mem_granted he)
    exact hpq ((of_decide_eq_true hp).symm.trans hq)
  rw [hnone, List.append_nil]

end

/-! ## Messages that are handed over -/

/-- The records that deliveries bring to the tap at `index`. -/
def recordsFor (index : Nat) (ds : List (Delivery Receiver)) : List Tap.Record :=
  ds.filterMap fun d =>
    match d.receiver with
    | .inbox _ => none
    | .tap i cue => if i = index then some ⟨d.message.topic, cue, d.message.payload⟩ else none

/-- The taps after each has had an `offer` of the records of its deliveries. -/
def handed (taps : List Tap) (ds : List (Delivery Receiver)) : List Tap :=
  ds.foldl (fun taps d =>
    match d.receiver with
    | .inbox _ => taps
    | .tap i cue => taps.modify i (·.offer ⟨d.message.topic, cue, d.message.payload⟩)) taps

section
variable (taps : List Tap) (ds : List (Delivery Receiver))

@[simp] lemma length_handed : (handed taps ds).length = taps.length := by
  induction ds generalizing taps with
  | nil => rfl
  | cons d ds ih =>
    refine (ih _).trans ?_
    cases hreceiver : d.receiver with
    | inbox cue => simp only [hreceiver]
    | tap i cue => simp only [hreceiver, List.length_modify]

/-- A tap is offered the records of `recordsFor`. -/
lemma getElem?_handed (index : Nat) :
    (handed taps ds)[index]? =
      taps[index]?.map fun t => (recordsFor index ds).foldl Tap.offer t := by
  induction ds generalizing taps with
  | nil => simp [handed, recordsFor]
  | cons d ds ih =>
    refine (ih _).trans ?_
    unfold recordsFor
    cases hreceiver : d.receiver with
    | inbox cue => simp only [hreceiver, List.filterMap_cons]
    | tap i cue =>
      by_cases hi : i = index
      · simp only [hreceiver, hi, if_true, List.filterMap_cons, List.foldl_cons,
          List.getElem?_modify_eq, Option.map_eq_map, Option.map_map]
        rfl
      · simp only [hreceiver, hi, if_false, List.filterMap_cons,
          List.getElem?_modify_ne _ _ hi]

end

lemma recordsFor_filter (index : Nat) (ds : List (Delivery Receiver)) :
    recordsFor index (ds.filter (·.receiver.part = .tap index)) = recordsFor index ds := by
  rw [recordsFor, recordsFor, List.filterMap_filter]
  congr 1
  funext d
  cases hreceiver : d.receiver with
  | inbox cue => simp [Receiver.part]
  | tap i cue => by_cases hi : i = index <;> simp [Receiver.part, hi]

lemma eventsOf_filter (ds : List (Delivery Receiver)) :
    eventsOf (ds.filter (·.receiver.part = .worker)) = eventsOf ds := by
  rw [eventsOf, eventsOf, List.filterMap_filter]
  congr 1
  funext d
  cases hreceiver : d.receiver with
  | inbox cue => simp [Receiver.part]
  | tap i cue => simp [Receiver.part]

namespace Site

/-- The effect of `deliverAll`: `eventsOf` enter the inbox, the taps are `handed` their records, and
parts are woken. -/
lemma deliverAll_eq (s : Site) (ds : List (Delivery Receiver)) :
    ∃ ready, s.deliverAll ds =
      { s with inbox := s.inbox.offerAll (eventsOf ds), taps := handed s.taps ds, ready } := by
  induction ds generalizing s with
  | nil => exact ⟨s.ready, rfl⟩
  | cons d ds ih =>
    obtain ⟨ready, hrest⟩ := ih (s.deliver d)
    refine ⟨ready, hrest.trans ?_⟩
    unfold deliver eventsOf handed
    cases hreceiver : d.receiver with
    | inbox cue =>
      obtain ⟨woken, hwake⟩ :=
        wake_eq { s with inbox := s.inbox.offer ⟨cue, d.message.payload⟩ } .worker
      simp only [hwake, hreceiver, List.filterMap_cons, List.foldl_cons]
      rfl
    | tap i cue =>
      obtain ⟨woken, hwake⟩ := wake_eq { s with taps := s.taps.modify i (·.offer
        ⟨d.message.topic, cue, d.message.payload⟩) } (.tap i)
      simp only [hwake, hreceiver, List.filterMap_cons, List.foldl_cons]

/-! ## Deeds -/

/-- What can be done by a conductor or to it. -/
inductive Deed where
  /-- Somebody calls `Site.post`. -/
  | post (m : Message)
  /-- An `Influence` on the bus from outside. -/
  | influence (i : Influence)
  /-- The bus reads what has arrived (`readStep?`). -/
  | read
  /-- The worker makes a step (`workStep?`), if it can. -/
  | work
  /-- Somebody enters an event past the bus, or lines up (`Inbox.send`). -/
  | send (e : Event)
  /-- Those with a place in `Inbox.granted` take it. -/
  | takePlaces
  | clock (now : Nat)
  /-- Somebody calls `orderStop`. -/
  | order
  | unsubscribe
  | turn (ready yielded : List Part) (left : Nat)

def perform (s : Site) : Deed → Site
  | .post m => (s.post m).2
  | .influence i =>
    { s with access := { s.access with carrier := s.access.carrier.undergo i } }
  | .read => s.readStep?.getD s
  | .work => s.workStep?.getD s
  | .send e =>
    match s.inbox.send e with
    | (.entered, inbox) => { s with inbox }.wake .worker
    | (_, inbox) => { s with inbox }
  | .takePlaces => { s with inbox := s.inbox.enterGranted }.wake .worker
  | .clock t => s.setClock t
  | .order => s.orderStop
  | .unsubscribe => s.unsubscribe.2
  | .turn ready yielded left => { s with ready, yielded, left }

def performAll (s : Site) (deeds : List Deed) : Site := deeds.foldl perform s

/-- The message that the next `workStep?` publishes, if it does. -/
def sendingNow? (s : Site) : Option Message :=
  if s.pausedUntil.all (· ≤ s.now) then s.worker.message? else none

/-- The messages that are handed over with a deed. -/
def messagesOf (s : Site) : Deed → List Message
  | .post m => s.access.carrier.passedOn m
  | .read => s.access.carrier.arriving
  | .work => s.sendingNow?.toList.flatMap s.access.carrier.passedOn
  | _ => []

/-- From `s` to `s'` the messages `ms` are handed over to the taps, and the subscriptions stay as
they are. Of the conductor nothing is said. -/
structure Passes (s : Site) (ms : List Message) (s' : Site) : Prop where
  table : s'.access.carrier.subscriptions = s.access.carrier.subscriptions
  drill : s'.access.drill = s.access.drill
  subscriptions : s'.subscriptions = s.subscriptions
  taps : s'.taps = handed s.taps (ms.flatMap s.access.carrier.subscriptions.deliveries)

/-- A step of the worker attempts to send `sendingNow?`, or leaves bus and taps alone. -/
lemma workStep?_cases {s s' : Site} (h : s.workStep? = some s') :
    (∃ m left, s.sendingNow? = some m ∧ s' = { s with left }.attempt m) ∨
      (s.sendingNow? = none ∧ s'.access = s.access ∧ s'.subscriptions = s.subscriptions ∧
        s'.taps = s.taps) := by
  unfold workStep? at h
  cases hjob : s.worker.job with
  | stopped => simp [hjob] at h
  | waiting =>
    have hmessage : s.sendingNow? = none := by
      simp [sendingNow?, Worker.message?, hjob]
    refine .inr ⟨hmessage, ?_⟩
    simp only [hjob, lookStep?] at h
    split_ifs at h
    · cases h
      exact ⟨rfl, rfl, rfl⟩
    · split at h
      · cases h
        exact ⟨rfl, rfl, rfl⟩
      · obtain ⟨w, -, rfl⟩ := Option.map_eq_some_iff.1 h
        exact ⟨rfl, rfl, rfl⟩
  | sending next rest ending =>
    have hmessage : s.worker.message? = some ⟨next.2, next.1.payload, s.worker.qos⟩ := by
      simp only [Worker.message?, hjob]
    simp only [hjob, hmessage] at h
    cases hpaused : s.pausedUntil with
    | none =>
      simp only [hpaused] at h
      cases h
      exact .inl ⟨_, s.left, by simp [sendingNow?, hpaused, hmessage], rfl⟩
    | some t =>
      simp only [hpaused] at h
      split_ifs at h with hlate
      cases h
      exact .inl ⟨_, s.left - 1, by simp [sendingNow?, hpaused, hmessage, Nat.not_lt.1 hlate], rfl⟩

lemma sendingNow?_eq_none {s : Site} (h : s.workStep? = none) : s.sendingNow? = none := by
  obtain ⟨-, hpaused⟩ := workStep?_eq_none_iff.1 h
  unfold sendingNow? Worker.message?
  unfold Worker.pending at hpaused
  cases hjob : s.worker.job with
  | stopped | waiting => simp
  | sending next rest ending =>
    simp only [hjob] at hpaused
    obtain ⟨t, ht, hlater⟩ := hpaused (List.cons_ne_nil _ _)
    simp [ht, hlater]

lemma passes_of_taps_eq {s s' : Site} (haccess : s'.access = s.access)
    (hsubscriptions : s'.subscriptions = s.subscriptions) (htaps : s'.taps = s.taps) :
    s.Passes [] s' :=
  ⟨by rw [haccess], by rw [haccess], hsubscriptions, htaps⟩

lemma Passes.wake {s s' : Site} {ms : List Message} (h : s.Passes ms s') (p : Part) :
    s.Passes ms (s'.wake p) := by
  obtain ⟨ready, hready⟩ := wake_eq s' p
  rw [hready]
  exact ⟨h.table, h.drill, h.subscriptions, h.taps⟩

lemma attempt_of_error {s : Site} {m : Message} {f : Failure} {carrier : Carrier Receiver}
    (h : s.access.carrier.publish m = (.error f, carrier)) :
    s.attempt m =
      match s.retry.pauseAfter? (s.tried + 1) f with
      | some pause => { s with
          access := { s.access with carrier }
          tried := s.tried + 1, pausedUntil := some (s.now + pause) }
      | none => { s with
          access := { s.access with carrier }
          tried := 0, pausedUntil := none }.took (s.worker.sent (.error f)) := by
  cases hpause : s.retry.pauseAfter? (s.tried + 1) f <;> simp only [attempt, h, hpause]

lemma attempt_of_ok {s : Site} {m : Message} {ds : List (Delivery Receiver)}
    {carrier : Carrier Receiver} (h : s.access.carrier.publish m = (.ok ds, carrier)) :
    ∃ ready, s.attempt m = { s with
      access := { s.access with carrier }
      inbox := s.inbox.offerAll (eventsOf ds), taps := handed s.taps ds, ready
      tried := 0, pausedUntil := none }.took (s.worker.sent (.ok ())) := by
  obtain ⟨ready, hdeliver⟩ := deliverAll_eq
    { s with access := { s.access with carrier }, pausedUntil := none } ds
  refine ⟨ready, ?_⟩
  simp only [attempt, h, hdeliver]

lemma passes_attempt (s : Site) (m : Message) :
    s.Passes (s.access.carrier.passedOn m) (s.attempt m) := by
  obtain ⟨carrier, htable, ⟨f, hrefused, hnone⟩ | htaken⟩ := s.access.carrier.publish_eq m
  · rw [attempt_of_error hrefused, hnone]
    cases s.retry.pauseAfter? (s.tried + 1) f <;> exact ⟨htable, rfl, rfl, rfl⟩
  · obtain ⟨ready, heq⟩ := attempt_of_ok htaken
    rw [heq]
    exact ⟨htable, rfl, rfl, rfl⟩

lemma passes_post (s : Site) (m : Message) :
    s.Passes (s.access.carrier.passedOn m) (s.post m).2 := by
  obtain ⟨carrier, htable, ⟨f, hrefused, hnone⟩ | htaken⟩ := s.access.carrier.publish_eq m
  · simp only [post, hrefused, hnone]
    exact ⟨htable, rfl, rfl, rfl⟩
  · obtain ⟨ready, hdeliver⟩ := deliverAll_eq { s with access := { s.access with carrier } }
      ((s.access.carrier.passedOn m).flatMap s.access.carrier.subscriptions.deliveries)
    simp only [post, htaken, hdeliver]
    exact ⟨htable, rfl, rfl, rfl⟩

lemma passes_read (s : Site) : s.Passes s.access.carrier.arriving (s.readStep?.getD s) := by
  unfold readStep?
  rcases s.access.carrier.readArrived?_eq with ⟨hnothing, hnone⟩ | ⟨carrier, htable, hread⟩
  · rw [hnone, hnothing]
    exact ⟨rfl, rfl, rfl, rfl⟩
  · obtain ⟨ready, hdeliver⟩ := deliverAll_eq { s with access := { s.access with carrier } }
      (s.access.carrier.arriving.flatMap s.access.carrier.subscriptions.deliveries)
    simp only [hread, Option.map_some, Option.getD_some, hdeliver]
    exact ⟨htable, rfl, rfl, rfl⟩

lemma passes_work (s : Site) :
    s.Passes (s.sendingNow?.toList.flatMap s.access.carrier.passedOn) (s.workStep?.getD s) := by
  cases hwork : s.workStep? with
  | some s' =>
    rcases workStep?_cases hwork with ⟨m, left, hm, rfl⟩ | ⟨hm, haccess, hsubscriptions, htaps⟩
    · have hattempt := passes_attempt { s with left } m
      rw [hm, Option.toList_some, List.flatMap_singleton]
      exact ⟨hattempt.table, hattempt.drill, hattempt.subscriptions, hattempt.taps⟩
    · rw [hm]
      exact passes_of_taps_eq haccess hsubscriptions htaps
  | none =>
    rw [sendingNow?_eq_none hwork]
    exact ⟨rfl, rfl, rfl, rfl⟩

/-- Every deed but `unsubscribe` hands over its `messagesOf`, and that is all the taps see. -/
lemma passes_perform (s : Site) {d : Deed} (hd : d ≠ .unsubscribe) :
    s.Passes (s.messagesOf d) (s.perform d) := by
  cases d with
  | post m => exact s.passes_post m
  | influence i => exact ⟨Carrier.subscriptions_undergo .., rfl, rfl, rfl⟩
  | read => exact s.passes_read
  | work => exact s.passes_work
  | send e =>
    simp only [perform, messagesOf]
    split
    · refine Passes.wake ?_ _
      exact passes_of_taps_eq rfl rfl rfl
    · exact ⟨rfl, rfl, rfl, rfl⟩
  | takePlaces | clock | order =>
    refine Passes.wake ?_ _
    exact passes_of_taps_eq rfl rfl rfl
  | unsubscribe => exact absurd rfl hd
  | turn ready yielded left => exact ⟨rfl, rfl, rfl, rfl⟩

/-! ## What is done with taps -/

lemma abandonTap_eq (s : Site) (h : TapHandle) :
    ∃ ready, s.abandonTap h = { s with taps := s.taps.modify h.index Tap.drain, ready } :=
  wake_eq { s with taps := s.taps.modify h.index Tap.drain } _

lemma releaseTap_eq (s : Site) (h : TapHandle) :
    ∃ ready, s.releaseTap h = ((s.access.unsubscribeAll h.subscriptions).1, { s with
      access := (s.access.unsubscribeAll h.subscriptions).2
      taps := s.taps.modify h.index Tap.drain, ready }) := by
  obtain ⟨ready, hready⟩ :=
    abandonTap_eq { s with access := (s.access.unsubscribeAll h.subscriptions).2 } h
  exact ⟨ready, congrArg (Prod.mk _) hready⟩

/-- A step of a tap changes that tap and the share that is `left`, and nothing else. -/
lemma tapStep?_getD (s : Site) (index : Nat) :
    ∃ left, (s.tapStep? index).getD s =
      { s with taps := s.taps.modify index fun t => t.step?.getD t, left } := by
  cases hstep : s.tapStep? index with
  | some s' =>
    obtain ⟨t, htap, t', hstep', rfl⟩ := tapStep?_eq_some hstep
    refine ⟨s.left - 1, ?_⟩
    have htaps : s.taps.modify index (fun t => t.step?.getD t) = s.taps.set index t' := by
      rw [List.modify_eq_set_getElem?, htap]
      simp [hstep']
    rw [htaps]
    rfl
  | none =>
    -- there is no such tap, or it cannot go on
    refine ⟨s.left, ?_⟩
    have htaps : s.taps.modify index (fun t => t.step?.getD t) = s.taps := by
      refine List.ext_getElem? fun i => ?_
      by_cases hi : index = i
      · subst hi
        rw [List.getElem?_modify_eq]
        cases htap : s.taps[index]? with
        | none => rfl
        | some t =>
          have hnone : t.step? = none := by
            rw [Option.eq_none_iff_forall_ne_some]
            simpa [tapStep?, htap] using hstep
          simp [hnone]
      · rw [List.getElem?_modify_ne _ _ hi]
    rw [htaps]
    rfl

end Site

end VoiceTurn.Conductor
