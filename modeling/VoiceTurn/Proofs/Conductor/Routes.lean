import Mathlib.Tactic.Lemma
import VoiceTurn.Conductor.Site
import VoiceTurn.Proofs.Bus.Access
import VoiceTurn.Proofs.Conductor.Service
import VoiceTurn.Proofs.Topic.Roots

/-!
# Routes into the inbox

Subscriptions that are made together come behind those that are there, in their order
(`requestsOf_subscribeAll`). When the others feed taps only, every message enters the inbox as the
one event that it reports, or not at all (`eventsOf_deliveries`). Conductors whose topics are below
different roots hear nothing of each other (`Site.roots_keep_conductors_apart`).
-/

namespace VoiceTurn

open Bus (Access Carrier Delivery Message Qos Request Subscriptions)
open Line (Link)
open Topic (Registry isFilter isMatch isPublishable)

namespace Conductor

/-! ## Subscriptions -/

section
variable {ρ : Type}

/-- The requests of the `entries` of a table. -/
def requestsOf (t : Subscriptions ρ) : List (Request ρ) :=
  t.entries.map fun s => ⟨s.filter, s.qos, s.receiver⟩

/-- The deliveries of a message to those who have made the `requests`. -/
def deliveriesTo (requests : List (Request ρ)) (message : Message) : List (Delivery ρ) :=
  (requests.filter fun q => isMatch q.filter message.topic).map fun q =>
    ⟨q.receiver, { message with qos := q.qos.weaker message.qos }⟩

lemma deliveries_eq (t : Subscriptions ρ) (message : Message) :
    t.deliveries message = deliveriesTo (requestsOf t) message := by
  rw [deliveriesTo, requestsOf, List.filter_map, List.map_map]
  rfl

lemma deliveriesTo_append (requests requests' : List (Request ρ)) (message : Message) :
    deliveriesTo (requests ++ requests') message =
      deliveriesTo requests message ++ deliveriesTo requests' message := by
  rw [deliveriesTo, List.filter_append, List.map_append]
  rfl

lemma requestsOf_grantAll (t : Subscriptions ρ) (requests : List (Request ρ)) :
    requestsOf (t.grantAll requests) = requestsOf t ++ requests := by
  rw [requestsOf, Subscriptions.entries_grantAll, List.map_append, Subscriptions.requests_granted]
  rfl

/-- What `subscribeAll` asks for comes behind what was there. -/
lemma requestsOf_subscribeAll {requests : List (Request ρ)} {a a' : Access ρ} {made ids : List Nat}
    (h : a.subscribeAll made requests = (.ok ids, a')) :
    requestsOf a'.carrier.subscriptions = requestsOf a.carrier.subscriptions ++ requests := by
  obtain ⟨granted, gone, -, -, hcarrier, hok, -⟩ := Access.subscribeAll_spec h
  obtain ⟨rfl, rfl, -⟩ := hok ids rfl
  rw [hcarrier, Carrier.subscriptions_withSubscriptions, Subscriptions.removeAll_nil,
    requestsOf_grantAll]

end

/-! ## Routes -/

def isForTap (q : Request Receiver) : Bool :=
  match q.receiver with
  | .tap .. => true
  | .inbox _ => false

/-- Of `inboxRequests` a message meets the one for the cue that `cueOf?` finds. -/
lemma deliveriesTo_inboxRequests {r : Registry} (hr : r.defect? = none) (qos : Qos)
    (message : Message) :
    deliveriesTo (Site.inboxRequests r qos) message = (r.cueOf? message.topic).toList.map fun c =>
      ⟨.inbox c, { message with qos := qos.weaker message.qos }⟩ := by
  have hmatch (c : Cue) :
      isMatch (r.ofCue c) message.topic = decide (r.ofCue c = message.topic) := by
    rw [Bool.eq_iff_iff, decide_eq_true_iff]
    exact Topic.isMatch_iff (Registry.isPublishable_topic hr _)
  have hfilter : Cue.all.filter ((fun q : Request Receiver => isMatch q.filter message.topic) ∘
      fun c => ⟨r.ofCue c, qos, .inbox c⟩) = (r.cueOf? message.topic).toList := by
    rw [← Registry.filter_ofCue hr]
    exact List.filter_congr fun c _ => hmatch c
  rw [deliveriesTo, Site.inboxRequests, List.filter_map, List.map_map, hfilter]
  rfl

lemma eventsOf_append (ds ds' : List (Delivery Receiver)) :
    eventsOf (ds ++ ds') = eventsOf ds ++ eventsOf ds' := List.filterMap_append

lemma eventsOf_deliveriesTo_taps {taps : List (Request Receiver)}
    (htaps : ∀ q ∈ taps, isForTap q = true) (message : Message) :
    eventsOf (deliveriesTo taps message) = [] := by
  rw [eventsOf, deliveriesTo, List.filterMap_map, List.filterMap_eq_nil_iff]
  intro q hq
  have htap := htaps q (List.mem_of_mem_filter hq)
  unfold isForTap at htap
  cases hreceiver : q.receiver with
  | tap i cue => simp [hreceiver]
  | inbox cue => rw [hreceiver] at htap; cases htap

/-- Where `inboxRequests` come behind requests of taps, a message enters the inbox as its
`eventOf?`. -/
lemma eventsOf_deliveries {r : Registry} (hr : r.defect? = none) {t : Subscriptions Receiver}
    {taps : List (Request Receiver)} (htaps : ∀ q ∈ taps, isForTap q = true) {qos : Qos}
    (ht : requestsOf t = taps ++ Site.inboxRequests r qos) (message : Message) :
    eventsOf (t.deliveries message) = (r.eventOf? message).toList := by
  rw [deliveries_eq, ht, deliveriesTo_append, eventsOf_append, eventsOf_deliveriesTo_taps htaps,
    List.nil_append, deliveriesTo_inboxRequests hr, Registry.eventOf?]
  cases r.cueOf? message.topic <;> rfl

namespace Site

variable {access access' : Access Receiver} {taps : List Tap} {retry : Bus.Retry} {r : Registry}
  {settings : Settings} {begun : Site}

/-- What `inboxRequests` of a valid registry asks for are filters. -/
lemma isFilter_of_mem_inboxRequests (hr : r.defect? = none) (qos : Qos) :
    ∀ q ∈ inboxRequests r qos, isFilter q.filter = true := by
  intro q hq
  obtain ⟨c, -, rfl⟩ := List.mem_map.1 hq
  exact Topic.isFilter_of_isPublishable (Registry.isPublishable_topic hr _)

lemma isFilter_of_mem_tapRequests (hr : r.defect? = none) (index : Nat) :
    ∀ q ∈ tapRequests r index, isFilter q.filter = true := by
  intro q hq
  obtain ⟨c, -, rfl⟩ := List.mem_map.1 hq
  exact Topic.isFilter_of_isPublishable (Registry.isPublishable_topic hr _)

/-- With a valid registry a site can start on an open bus that `IsReliable`. -/
lemma exists_start_of_open (access : Access Receiver) (hr : r.defect? = none)
    (hopen : access.carrier.isClosed = false) (hreliable : access.IsReliable) (taps : List Tap)
    (retry : Bus.Retry) (settings : Settings) :
    ∃ begun access', start access taps retry r settings = (.ok begun, access') ∧
      begun.access.carrier = access.carrier.withSubscriptions
        (access.carrier.subscriptions.grantAll (inboxRequests r settings.bus.inboundQos)) ∧
      begun.subscriptions.length = Cue.all.length := by
  obtain ⟨ids, access', hsubscribe, -, hcarrier, rfl⟩ :=
    Access.subscribeAll_of_open hopen hreliable
      (isFilter_of_mem_inboxRequests hr settings.bus.inboundQos) []
  unfold start
  simp only [hr, hsubscribe]
  refine ⟨_, _, rfl, hcarrier, ?_⟩
  rw [List.nil_append, List.length_range', inboxRequests, List.length_map]

/-- With a valid registry a tap can be attached to an open bus that `IsReliable`. -/
lemma exists_attachTo (access : Access Receiver) (hr : r.defect? = none)
    (hopen : access.carrier.isClosed = false) (hreliable : access.IsReliable) (taps : List Tap)
    (tap : Tap) :
    ∃ ids access', attachTo access taps r tap = (.ok ⟨taps.length, ids⟩, access', taps ++ [tap]) ∧
      access'.IsReliable ∧ access'.carrier = access.carrier.withSubscriptions
        (access.carrier.subscriptions.grantAll (tapRequests r taps.length)) ∧
      ids.length = Tap.cues.length := by
  obtain ⟨ids, access', hsubscribe, hreliable', hcarrier, rfl⟩ :=
    Access.subscribeAll_of_open hopen hreliable (isFilter_of_mem_tapRequests hr taps.length) []
  unfold attachTo
  simp only [hsubscribe]
  refine ⟨_, access', rfl, hreliable', hcarrier, ?_⟩
  rw [List.nil_append, List.length_range', tapRequests, List.length_map]

/-- Everything that `start` can do: be refused for a defect of the registry or for a subscription
that fails, or start. -/
lemma start_cases {result : Except Refusal Site}
    (h : start access taps retry r settings = (result, access')) :
    (∃ slot defect, r.defect? = some (slot, defect) ∧
      result = .error (.misconfigured slot defect) ∧ access' = access) ∨
    r.defect? = none ∧
      ((∃ f, access.subscribeAll [] (inboxRequests r settings.bus.inboundQos) =
          (.error f, access') ∧ result = .error (.bus f)) ∨
        ∃ begun, access.subscribeAll [] (inboxRequests r settings.bus.inboundQos) =
          (.ok begun.subscriptions, access') ∧ result = .ok begun ∧ begun.access = access' ∧
            begun.taps = taps) := by
  unfold start at h
  split at h
  · next slot defect hdefect =>
    cases h
    exact .inl ⟨slot, defect, hdefect, rfl, rfl⟩
  · next hdefect =>
    refine .inr ⟨hdefect, ?_⟩
    split at h
    · next f _ hsubscribe =>
      cases h
      exact .inl ⟨f, hsubscribe, rfl⟩
    · next hsubscribe =>
      cases h
      exact .inr ⟨_, hsubscribe, rfl, rfl, rfl⟩

/-- Everything that `attachTo` can do: fail with one of its two subscriptions, or attach the tap. -/
lemma attachTo_cases {taps' : List Tap} {tap : Tap} {result : Except Bus.Failure TapHandle}
    (h : attachTo access taps r tap = (result, access', taps')) :
    (∃ f, access.subscribeAll [] (tapRequests r taps.length) = (.error f, access') ∧
      result = .error f ∧ taps' = taps ++ [{ tap with stage := .stopped }]) ∨
    ∃ ids, access.subscribeAll [] (tapRequests r taps.length) = (.ok ids, access') ∧
      result = .ok ⟨taps.length, ids⟩ ∧ taps' = taps ++ [tap] := by
  unfold attachTo at h
  split at h
  · next ids _ hsubscribe =>
    cases h
    exact .inr ⟨ids, hsubscribe, rfl, rfl⟩
  · next f _ hsubscribe =>
    cases h
    exact .inl ⟨f, hsubscribe, rfl, rfl⟩

/-- A site that starts has a registry without `defect?`, and asks the bus for `inboxRequests` of
it. -/
lemma requestsOf_start (hstart : start access taps retry r settings = (.ok begun, access')) :
    r.defect? = none ∧ requestsOf begun.access.carrier.subscriptions =
      requestsOf access.carrier.subscriptions ++ inboxRequests r settings.bus.inboundQos := by
  rcases start_cases hstart with
    ⟨_, _, -, heq, -⟩ | ⟨hdefect, ⟨_, -, heq⟩ | ⟨_, hsubscribe, heq, rfl, -⟩⟩
  · cases heq
  · cases heq
  · cases heq
    exact ⟨hdefect, requestsOf_subscribeAll hsubscribe⟩

/-- A registry has no `defect?` just when its topics are publishable and its cues have topics of
their own. Then the topic of a cue matches itself only, and what a conductor has subscribed to
brings it a message once, as the event of the cue whose topic it has, or not at all. -/
theorem validated_topics_route_exactly (r : Registry) :
    (r.defect? = none ↔
      (∀ slot, (r.topic slot).toList ≠ [] ∧
        ∀ c ∈ (r.topic slot).toList, c ≠ '+' ∧ c ≠ '#' ∧ isBlank c = false) ∧
      ∀ cue cue' : Cue, cue ≠ cue' → r.ofCue cue ≠ r.ofCue cue') ∧
    (r.defect? = none →
      (∀ cue, isFilter (r.ofCue cue) = true) ∧ (∀ slot, isPublishable (r.topic slot) = true) ∧
      (∀ cue topic, isMatch (r.ofCue cue) topic = true ↔ topic = r.ofCue cue) ∧
      -- `own` is what a message brings to the conductor that has been started
      ∀ (access access' : Access Receiver) (taps : List Tap) (retry : Bus.Retry)
        (settings : Settings) (begun : Site),
        start access taps retry r settings = (.ok begun, access') →
        ∀ m : Message, ∃ own : List (Delivery Receiver),
          begun.access.carrier.subscriptions.deliveries m =
            access.carrier.subscriptions.deliveries m ++ own ∧
          own.length ≤ 1 ∧ (own = [] ↔ ∀ cue, m.topic ≠ r.ofCue cue) ∧
          ∀ cue, m.topic = r.ofCue cue →
            own = [⟨.inbox cue, { m with qos := settings.bus.inboundQos.weaker m.qos }⟩] ∧
            ∀ s : Site, s.deliverAll own =
              { s with inbox := s.inbox.offer ⟨cue, m.payload⟩ }.wake .worker) := by
  have hpublishable (t : String) : isPublishable t = true ↔
      t.toList ≠ [] ∧ ∀ c ∈ t.toList, c ≠ '+' ∧ c ≠ '#' ∧ isBlank c = false := by
    rw [Topic.isPublishable_iff]
    simp [Topic.isWildcard, and_assoc]
  refine ⟨?_, fun hr => ?_⟩
  · rw [Registry.defect?_eq_none_iff, forall_congr' fun slot => hpublishable (r.topic slot)]
    refine and_congr_right fun _ => ⟨fun hnodup cue cue' hne heq => hne ?_, fun hne => ?_⟩
    · exact List.inj_on_of_nodup_map hnodup cue.mem_all cue'.mem_all heq
    · refine List.Nodup.map_on (fun cue _ cue' _ heq => ?_) (by decide)
      exact by_contra fun hcue => hne cue cue' hcue heq
  · -- a topic that can be published has no wildcards, so it is a filter for itself alone
    have hslots := Registry.isPublishable_topic hr
    refine ⟨fun cue => Topic.isFilter_of_isPublishable (hslots _), hslots, fun cue topic => ?_,
      fun access access' taps retry settings begun hstart m => ?_⟩
    · exact (Topic.isMatch_iff (hslots (Topic.Slot.ofCue cue))).trans eq_comm
    · refine ⟨deliveriesTo (inboxRequests r settings.bus.inboundQos) m, ?_, ?_⟩
      · rw [deliveries_eq, deliveries_eq, (requestsOf_start hstart).2, deliveriesTo_append]
      rw [deliveriesTo_inboxRequests hr]
      have hcue (cue : Cue) : r.cueOf? m.topic = some cue ↔ m.topic = r.ofCue cue :=
        Registry.cueOf?_eq_some_iff hr
      cases hfind : r.cueOf? m.topic with
      | none =>
        have hno (cue : Cue) : m.topic ≠ r.ofCue cue := fun heq => by
          rw [(hcue cue).2 heq] at hfind
          cases hfind
        exact ⟨Nat.zero_le _, ⟨fun _ => hno, fun _ => rfl⟩, fun cue heq => absurd heq (hno cue)⟩
      | some found =>
        have htopic : m.topic = r.ofCue found := (hcue found).1 hfind
        refine ⟨Nat.le_refl 1, ⟨nofun, fun hno => absurd htopic (hno found)⟩, fun cue heq => ?_⟩
        obtain rfl := Registry.ofCue_injective hr (htopic.symm.trans heq)
        exact ⟨rfl, fun s => rfl⟩

/-- A wake word on a bus with nobody but a conductor. -/
theorem validated_topics_route_exactly_wake_word :
    ∃ begun access', start { carrier := .link {} } [] .never .stock .stock = (.ok begun, access') ∧
      begun.access.carrier.subscriptions.deliveries
          ⟨"rhasspy/wake-word/detected", [], .exactlyOnce⟩ =
        [⟨.inbox .wakeDetected, ⟨"rhasspy/wake-word/detected", [], .atLeastOnce⟩⟩] := by
  obtain ⟨begun, access', hstart, -⟩ := exists_start_of_open { carrier := .link {} }
    Registry.defect?_stock rfl ⟨rfl, rfl⟩ [] .never .stock
  obtain ⟨-, -, -, hroutes⟩ := (validated_topics_route_exactly .stock).2 Registry.defect?_stock
  obtain ⟨own, hdeliveries, -, -, hown⟩ := hroutes _ _ _ _ _ _ hstart
    ⟨"rhasspy/wake-word/detected", [], .exactlyOnce⟩
  obtain ⟨rfl, -⟩ := hown .wakeDetected (by decide +kernel)
  exact ⟨begun, access', hstart, hdeliveries⟩

/-- The topics of `Registry.below root` are all different, and valid just when `root` holds no
wildcard and no blank. Roots with the same `trimRoot` give the same registry. With another
`trimRoot` no topic matches, and a conductor adds nothing to the deliveries of a message below the
other root. -/
theorem roots_keep_conductors_apart (root root' : String) :
    ((Registry.below root).defect? = none ↔
      ∀ c ∈ root.toList, c ≠ '+' ∧ c ≠ '#' ∧ isBlank c = false) ∧
    (∀ slot slot', slot ≠ slot' →
      (Registry.below root).topic slot ≠ (Registry.below root).topic slot') ∧
    (∀ n, Registry.below (String.ofList (root.toList ++ List.replicate n '/')) =
      Registry.below root) ∧
    (Registry.below root = Registry.below root' ↔
      Registry.trimRoot root = Registry.trimRoot root') ∧
    ((Registry.below root).defect? = none → ∀ slot slot',
      isMatch ((Registry.below root).topic slot) ((Registry.below root').topic slot') = true ↔
        Registry.trimRoot root = Registry.trimRoot root' ∧ slot = slot') ∧
    (Registry.trimRoot root ≠ Registry.trimRoot root' →
      ∀ (access access' : Access Receiver) (taps : List Tap) (retry : Bus.Retry)
        (settings : Settings) (begun : Site),
        start access taps retry (.below root) settings = (.ok begun, access') →
        ∀ slot (m : Message), m.topic = (Registry.below root').topic slot →
          begun.access.carrier.subscriptions.deliveries m =
            access.carrier.subscriptions.deliveries m) := by
  refine ⟨?_, fun slot slot' hne heq => hne (Registry.topic_below_eq_iff.1 heq).2, fun n => ?_,
    Registry.below_eq_iff, fun hr slot slot' => ?_,
    fun hne access access' taps retry settings begun hstart slot m hm => ?_⟩
  · rw [Registry.defect?_below_eq_none_iff]
    simp [Topic.isWildcard, and_assoc]
  · exact Registry.below_eq_iff.2 (Registry.trimRoot_append_slashes root n)
  · rw [Topic.isMatch_iff (Registry.isPublishable_topic hr slot), Registry.topic_below_eq_iff]
  · obtain ⟨hr, hrequests⟩ := requestsOf_start hstart
    have hnobody : (Registry.below root).cueOf? m.topic = none := by
      cases hcue : (Registry.below root).cueOf? m.topic with
      | none => rfl
      | some cue =>
        have heq := (Registry.cueOf?_eq_some_iff hr).1 hcue
        exact absurd (Registry.topic_below_eq_iff.1 (heq.symm.trans hm)).1 hne
    rw [deliveries_eq, deliveries_eq, hrequests, deliveriesTo_append, deliveriesTo_inboxRequests hr,
      hnobody]
    exact List.append_nil _

/-- A conductor for the hall on the bus of one for the kitchen: the wake word of the kitchen is one
event and not two. -/
theorem roots_keep_conductors_apart_kitchen_and_hall :
    let wake : Message := ⟨"kitchen/wake-word/detected", [], .exactlyOnce⟩
    ∃ kitchen access hall access',
      start { carrier := .link {} } [] .never (.below "kitchen") .stock = (.ok kitchen, access) ∧
      start { carrier := kitchen.access.carrier } [] .never (.below "hall/") .stock =
        (.ok hall, access') ∧
      hall.access.carrier.subscriptions.deliveries wake =
        kitchen.access.carrier.subscriptions.deliveries wake ∧
      eventsOf (hall.access.carrier.subscriptions.deliveries wake) = [⟨.wakeDetected, []⟩] := by
  intro wake
  obtain ⟨hvalid, -⟩ := roots_keep_conductors_apart "kitchen" "hall/"
  obtain ⟨hvalid', -, -, -, -, hapart⟩ := roots_keep_conductors_apart "hall/" "kitchen"
  have hplain {root : List Char} (h : (root.all fun c => c ≠ '+' && c ≠ '#' && !isBlank c) = true) :
      ∀ c ∈ root, c ≠ '+' ∧ c ≠ '#' ∧ isBlank c = false := by
    simpa [and_assoc] using h
  have hkitchen : (Registry.below "kitchen").defect? = none := hvalid.2 (hplain (by decide +kernel))
  have hhall : (Registry.below "hall/").defect? = none := hvalid'.2 (hplain (by decide +kernel))
  obtain ⟨kitchen, access, hstart, hcarrier, -⟩ :=
    exists_start_of_open { carrier := .link {} } hkitchen rfl ⟨rfl, rfl⟩ [] .never .stock
  obtain ⟨hall, access', hstart', -⟩ := exists_start_of_open { carrier := kitchen.access.carrier }
    hhall (by rw [hcarrier]; rfl) ⟨rfl, rfl⟩ [] .never .stock
  have hsame := hapart (by decide +kernel) _ _ _ _ _ _ hstart' .wakeDetected wake
    (by decide +kernel)
  have hnobody : ∀ q ∈ ([] : List (Request Receiver)), isForTap q = true := List.forall_mem_nil _
  have hevents := eventsOf_deliveries hkitchen hnobody (requestsOf_start hstart).2 wake
  refine ⟨kitchen, access, hall, access', hstart, hstart', hsame, ?_⟩
  rw [hsame, hevents]
  decide +kernel

end Site

end Conductor

end VoiceTurn
