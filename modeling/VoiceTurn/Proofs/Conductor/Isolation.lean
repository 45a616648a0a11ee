import Mathlib.Tactic.Lemma
import Mathlib.Tactic.SplitIfs
import VoiceTurn.Proofs.Conductor.Rig

/-!
# Taps change nothing

Two sites agree when all that belongs to their conductors is the same: the clock, the worker with
its counters, the inbox, the notices, and the bus but for the numbers of its subscriptions
(`Site.Agrees`). Deeds of the conductor keep sites in agreement (`Site.Agrees.perform`), and what
taps do and what is done to them is not seen at all (`Rig.IsTwin.movesTaps`), so a conductor does
the same with taps as without them (`Rig.taps_change_nothing`).
-/

namespace VoiceTurn.Conductor

open Bus (Access Carrier Delivery Failure Message Request Subscriptions)
open Topic (Registry)

namespace Site

/-! ## Agreement -/

/-- The conductors of two sites cannot be told apart; the sites may differ in taps and subscriptions
of taps. -/
structure Agrees (s s' : Site) : Prop where
  now : s.now = s'.now
  /-- The machine, the tally, the phase on display and the commands that are left to send. -/
  worker : s.worker = s'.worker
  /-- The events in the queue and how many have been lost. -/
  inbox : s.inbox = s'.inbox
  feed : s.feed = s'.feed
  retry : s.retry = s'.retry
  tried : s.tried = s'.tried
  pausedUntil : s.pausedUntil = s'.pausedUntil
  isStopping : s.isStopping = s'.isStopping
  /-- What has been published, what has arrived, and what else there is of the bus but its
  subscriptions. -/
  bus : s.access.carrier.withSubscriptions {} = s'.access.carrier.withSubscriptions {}
  /-- What the inbox is subscribed to. -/
  requests : requestsFor s.access.carrier.subscriptions .worker =
    requestsFor s'.access.carrier.subscriptions .worker

namespace Agrees

variable {s s' : Site}

lemma wake (h : s.Agrees s') (p q : Part) : (s.wake p).Agrees (s'.wake q) := by
  obtain ⟨ready, hready⟩ := wake_eq s p
  obtain ⟨ready', hready'⟩ := wake_eq s' q
  rw [hready, hready']
  exact { h with }

lemma took (h : s.Agrees s') (w : Worker × List Notice) : (s.took w).Agrees (s'.took w) :=
  { h with worker := rfl, feed := congrArg (·.pushAll w.2) h.feed }

lemma eventsOf_flatMap (h : s.Agrees s') (ms : List Message) :
    eventsOf (ms.flatMap s.access.carrier.subscriptions.deliveries) =
      eventsOf (ms.flatMap s'.access.carrier.subscriptions.deliveries) := by
  have hevents (m : Message) : eventsOf (s.access.carrier.subscriptions.deliveries m) =
      eventsOf (s'.access.carrier.subscriptions.deliveries m) := by
    rw [← eventsOf_filter, filter_deliveries, h.requests, ← filter_deliveries, eventsOf_filter]
  rw [eventsOf, eventsOf, List.filterMap_flatMap, List.filterMap_flatMap]
  exact congrArg (ms.flatMap ·) (funext hevents)

lemma withCarrier (h : s.Agrees s') (c : Carrier Receiver) :
    Agrees
      { s with access := { s.access with
          carrier := c.withSubscriptions s.access.carrier.subscriptions } }
      { s' with access := { s'.access with
          carrier := c.withSubscriptions s'.access.carrier.subscriptions } } :=
  { h with
    bus := by simp only [Carrier.withSubscriptions_withSubscriptions]
    requests := by
      simp only [Carrier.subscriptions_withSubscriptions]
      exact h.requests }

lemma deliverAll (h : s.Agrees s') (ms : List Message) :
    (s.deliverAll (ms.flatMap s.access.carrier.subscriptions.deliveries)).Agrees
      (s'.deliverAll (ms.flatMap s'.access.carrier.subscriptions.deliveries)) := by
  obtain ⟨ready, hdeliver⟩ :=
    deliverAll_eq s (ms.flatMap s.access.carrier.subscriptions.deliveries)
  obtain ⟨ready', hdeliver'⟩ :=
    deliverAll_eq s' (ms.flatMap s'.access.carrier.subscriptions.deliveries)
  rw [hdeliver, hdeliver']
  exact { h with inbox := by rw [h.inbox, h.eventsOf_flatMap] }

/-- The answer of a bus does not hang on its subscriptions. -/
lemma publish (h : s.Agrees s') (m : Message) :
    ∃ c : Carrier Receiver, (∃ f,
      s.access.carrier.publish m =
        (.error f, c.withSubscriptions s.access.carrier.subscriptions) ∧
      s'.access.carrier.publish m =
        (.error f, c.withSubscriptions s'.access.carrier.subscriptions)) ∨
      ∃ ms : List Message, s.access.carrier.publish m =
          (.ok (ms.flatMap s.access.carrier.subscriptions.deliveries),
            c.withSubscriptions s.access.carrier.subscriptions) ∧
        s'.access.carrier.publish m =
          (.ok (ms.flatMap s'.access.carrier.subscriptions.deliveries),
            c.withSubscriptions s'.access.carrier.subscriptions) := by
  have hself := s.access.carrier.withSubscriptions_subscriptions
  have hother := Carrier.withSubscriptions_of_eq h.bus
  obtain ⟨c, ⟨f, hrefused⟩ | ⟨ms, htaken⟩⟩ := s.access.carrier.publish_cases m
  · refine ⟨c, .inl ⟨f, ?_, ?_⟩⟩
    · rw [← (hrefused _).1, hself]
    · rw [← (hrefused _).1, hother]
  · refine ⟨c, .inr ⟨ms, ?_, ?_⟩⟩
    · rw [← (htaken _).1, hself]
    · rw [← (htaken _).1, hother]

lemma post (h : s.Agrees s') (m : Message) : (s.post m).2.Agrees (s'.post m).2 := by
  obtain ⟨c, ⟨f, hrefused, hrefused'⟩ | ⟨ms, htaken, htaken'⟩⟩ := h.publish m
  · simp only [Site.post, hrefused, hrefused']
    exact h.withCarrier c
  · simp only [Site.post, htaken, htaken']
    simpa using (h.withCarrier c).deliverAll ms

lemma attempt (h : s.Agrees s') (m : Message) : (s.attempt m).Agrees (s'.attempt m) := by
  obtain ⟨c, ⟨f, hrefused, hrefused'⟩ | ⟨ms, htaken, htaken'⟩⟩ := h.publish m
  · -- the same failure after as many tries leads to the same pause, or to giving up
    rw [attempt_of_error hrefused, attempt_of_error hrefused', ← h.retry, ← h.tried, ← h.now,
      ← h.worker]
    cases s.retry.pauseAfter? (s.tried + 1) f with
    | some pause =>
      exact { h.withCarrier c with
        now := rfl, worker := rfl, retry := rfl, tried := rfl, pausedUntil := rfl }
    | none =>
      refine Agrees.took ?_ _
      exact { h.withCarrier c with
        now := rfl, worker := rfl, retry := rfl, tried := rfl, pausedUntil := rfl }
  · obtain ⟨ready, heq⟩ := attempt_of_ok htaken
    obtain ⟨ready', heq'⟩ := attempt_of_ok htaken'
    rw [heq, heq', ← h.worker]
    refine Agrees.took ?_ _
    exact { h.withCarrier c with
      worker := rfl, tried := rfl, pausedUntil := rfl
      inbox := by rw [h.inbox, h.eventsOf_flatMap] }

lemma read (h : s.Agrees s') : (s.readStep?.getD s).Agrees (s'.readStep?.getD s') := by
  have hself := s.access.carrier.withSubscriptions_subscriptions
  have hother := Carrier.withSubscriptions_of_eq h.bus
  unfold readStep?
  rcases s.access.carrier.readArrived?_cases with ⟨-, hnone⟩ | ⟨c, hread⟩
  · rw [← hself, ← hother, hnone, hnone]
    exact h
  · have hread₁ := hread s.access.carrier.subscriptions
    have hread₂ := hread s'.access.carrier.subscriptions
    rw [hself] at hread₁
    rw [hother] at hread₂
    simp only [hread₁, hread₂, Option.map_some, Option.getD_some]
    simpa using (h.withCarrier c).deliverAll s.access.carrier.arriving

/-- A `lookStep?` finds the same to do. -/
lemma look (h : s.Agrees s') :
    (s.lookStep?.getD s).Agrees (s'.lookStep?.getD s') := by
  unfold lookStep?
  rw [← h.isStopping, ← h.inbox, ← h.worker, ← h.now]
  split_ifs
  · exact { h with now := rfl, worker := rfl, inbox := rfl, isStopping := rfl }
  · cases s.inbox.take? with
    | some taken =>
      refine Agrees.took ?_ _
      exact { h with now := rfl, worker := rfl, inbox := rfl, isStopping := rfl }
    | none =>
      cases s.worker.expire? s.now with
      | some w =>
        refine Agrees.took ?_ w
        exact { h with }
      | none => exact h

lemma work (h : s.Agrees s') : (s.workStep?.getD s).Agrees (s'.workStep?.getD s') := by
  unfold workStep?
  rw [← h.worker, ← h.pausedUntil, ← h.now]
  cases s.worker.job with
  | stopped => exact h
  | waiting => exact h.look
  | sending next rest ending =>
    cases s.worker.message? with
    | none =>
      cases s.pausedUntil <;> exact h
    | some m =>
      cases s.pausedUntil with
      | none => exact h.attempt m
      | some t =>
        simp only
        split_ifs
        · exact h
        · refine Agrees.attempt ?_ m
          exact { h with }

/-- Every deed but `unsubscribe` keeps two sites from being told apart. -/
lemma perform (h : s.Agrees s') {d : Deed} (hd : d ≠ .unsubscribe) :
    (s.perform d).Agrees (s'.perform d) := by
  cases d with
  | post m => exact h.post m
  | influence i =>
    refine { h with bus := ?_, requests := ?_ }
    · simp only [Site.perform, ← Carrier.undergo_withSubscriptions, h.bus]
    · simp only [Site.perform, Carrier.subscriptions_undergo]
      exact h.requests
  | read => exact h.read
  | work => exact h.work
  | send e =>
    simp only [Site.perform, ← h.inbox]
    cases s.inbox.send e with
    | mk sending inbox =>
      have hentered : Agrees { s with inbox } { s' with inbox } := { h with inbox := rfl }
      cases sending with
      | entered => exact hentered.wake _ _
      | waits | refused => exact hentered
  | takePlaces =>
    refine Agrees.wake ?_ _ _
    exact { h with inbox := by rw [h.inbox] }
  | clock t =>
    refine Agrees.wake ?_ _ _
    exact { h with now := rfl }
  | order =>
    refine Agrees.wake ?_ _ _
    exact { h with isStopping := rfl }
  | unsubscribe => exact absurd rfl hd
  | turn ready yielded left => exact { h with }

end Agrees

/-! ## Removing the subscriptions of the inbox -/

/-- A site knows the numbers of all subscriptions of its inbox, on a bus that `IsReliable`. -/
structure IsSteady (s : Site) : Prop where
  own : s.subscriptions = idsOf s.access.carrier.subscriptions .worker
  reliable : s.access.IsReliable

namespace IsSteady

variable {s s' : Site}

/-- An `unsubscribe` removes all subscriptions of the inbox, and nothing else happens. -/
lemma unsubscribe (h : s.IsSteady) :
    ∃ t drill, s.unsubscribe.2 =
        { s with access := ⟨s.access.carrier.withSubscriptions t, drill⟩, subscriptions := [] } ∧
      entriesOf t .worker = [] ∧ s.unsubscribe.2.IsSteady := by
  obtain ⟨gone, drill, -, haccess, hok, hreliable⟩ :=
    s.access.unsubscribeAll_spec s.subscriptions
  obtain ⟨hresult, hreliable'⟩ := hreliable h.reliable
  obtain rfl := hok hresult
  have heq : s.unsubscribe.2 = { s with
      access := ⟨s.access.carrier.withSubscriptions
        (s.access.carrier.subscriptions.removeAll s.subscriptions), drill⟩
      subscriptions := [] } := by
    unfold Site.unsubscribe
    simp only [haccess]
  have hnone :
      entriesOf (s.access.carrier.subscriptions.removeAll s.subscriptions) .worker = [] := by
    rw [h.own, entriesOf_removeAll_idsOf]
  refine ⟨_, drill, heq, hnone, ?_⟩
  rw [heq]
  refine ⟨?_, hreliable'⟩
  rw [Carrier.subscriptions_withSubscriptions, idsOf, hnone]
  rfl

lemma perform (h : s.IsSteady) (d : Deed) : (s.perform d).IsSteady := by
  by_cases hd : d = .unsubscribe
  · subst hd
    obtain ⟨_, _, -, -, hsteady⟩ := h.unsubscribe
    exact hsteady
  · have hpasses := s.passes_perform hd
    refine ⟨?_, ?_⟩
    · rw [hpasses.subscriptions, hpasses.table]
      exact h.own
    · unfold Access.IsReliable
      rw [hpasses.drill]
      exact h.reliable

/-- Deeds, `unsubscribe` among them, keep two sites from being told apart. -/
lemma agrees_perform (h : s.IsSteady) (h' : s'.IsSteady) (hagrees : s.Agrees s') (d : Deed) :
    (s.perform d).Agrees (s'.perform d) := by
  by_cases hd : d = .unsubscribe
  · subst hd
    obtain ⟨t, drill, heq, hnone, -⟩ := h.unsubscribe
    obtain ⟨t', drill', heq', hnone', -⟩ := h'.unsubscribe
    simp only [Site.perform, heq, heq']
    refine { hagrees with bus := ?_, requests := ?_ }
    · simpa using hagrees.bus
    · simp only [Carrier.subscriptions_withSubscriptions, requestsFor, hnone, hnone']
  · exact hagrees.perform hd

end IsSteady

end Site

/-! ## Rigs and sites without taps -/

namespace Rig

/-- The conductor of a rig `Agrees` with that of another site. -/
structure IsTwin (g : Rig) (s : Site) : Prop where
  agrees : g.site.Agrees s
  sound : g.IsSound
  steady : g.site.IsSteady
  steady' : s.IsSteady

namespace IsTwin

variable {g : Rig} {s : Site}

/-- What only `MovesTaps` is not seen. -/
lemma movesTaps (h : g.IsTwin s) {g' : Rig} (hmoves : g.MovesTaps g') : g'.IsTwin s := by
  obtain ⟨access, taps, ready, left, hsite⟩ := hmoves.site
  have hbus := hmoves.bus
  have hinbox := hmoves.inbox
  have hreliable := hmoves.reliable
  rw [hsite] at hbus hinbox hreliable
  refine ⟨?_, hmoves.sound, ?_, h.steady'⟩
  · rw [hsite]
    refine { h.agrees with bus := ?_, requests := ?_ }
    · show access.carrier.withSubscriptions {} = _
      rw [hbus, Carrier.withSubscriptions_withSubscriptions]
      exact h.agrees.bus
    · show requestsFor access.carrier.subscriptions .worker = _
      rw [requestsFor, hinbox]
      exact h.agrees.requests
  · rw [hsite]
    refine ⟨?_, hreliable h.steady.reliable⟩
    show g.site.subscriptions = idsOf access.carrier.subscriptions .worker
    rw [idsOf, hinbox]
    exact h.steady.own

/-- Deeds of the conductor are done by both, and those of `MovesTaps` are not seen. -/
lemma run (h : g.IsTwin s) (deeds : List Deed) :
    (g.run deeds).IsTwin (s.performAll (deeds.filterMap Deed.ofConductor?)) := by
  induction deeds generalizing g s with
  | nil => exact h
  | cons d deeds ih =>
    cases hd : d.ofConductor? with
    | none =>
      -- the site without taps stays where it is
      rw [List.filterMap_cons_none hd]
      exact ih (h.movesTaps (movesTaps_perform h.sound hd))
    | some d' =>
      rw [List.filterMap_cons_some hd]
      cases d with
      | attach | record | detach | abandon => cases hd
      | conductor d =>
        obtain rfl : d = d' := Option.some.inj hd
        exact ih ⟨h.steady.agrees_perform h.steady' h.agrees d, h.sound.conductor d,
          h.steady.perform d, h.steady'.perform d⟩

end IsTwin

section
variable {bare access : Access Receiver} {taps : List Tap} {held : List Attachment}
  (hattached : Attached bare access taps held) (hbare : bare.carrier.subscriptions.entries = [])
  (hreliable : bare.IsReliable) (retry : Bus.Retry) (r : Registry) (settings : Settings)
include hattached hbare hreliable

/-- On the bus `bare` a conductor starts when and only when it starts beside taps. -/
lemma start_cases :
    (∃ refusal access₁ access₂,
      Site.start access taps retry r settings = (.error refusal, access₁) ∧
      Site.start bare [] retry r settings = (.error refusal, access₂)) ∨
    ∃ tapped plain access₁ access₂,
      Site.start access taps retry r settings = (.ok tapped, access₁) ∧
      Site.start bare [] retry r settings = (.ok plain, access₂) ∧
      IsTwin ⟨tapped, held⟩ plain := by
  obtain ⟨hbus, hreliable', -, -⟩ := hattached.spec hbare
  cases hdefect : r.defect? with
  | some found =>
    refine .inl ⟨.misconfigured found.1 found.2, access, bare, ?_, ?_⟩
    all_goals simp only [Site.start, hdefect]
  | none =>
    rcases Access.subscribeAll_congr (Site.inboxRequests r settings.bus.inboundQos) hbus
      (hreliable' hreliable) hreliable [] [] with
      ⟨f, hf, hf'⟩ | ⟨ids, ids', hids, hids'⟩
    · -- the two buses refuse a subscription for the same reason
      have hrefused {b : Access Receiver} (ts : List Tap)
          (hb : (b.subscribeAll [] (Site.inboxRequests r settings.bus.inboundQos)).1 = .error f) :
          ∃ b', Site.start b ts retry r settings = (.error (.bus f), b') := by
        refine ⟨(b.subscribeAll [] (Site.inboxRequests r settings.bus.inboundQos)).2, ?_⟩
        unfold Site.start
        rw [hdefect, ← Prod.mk.eta (p := b.subscribeAll ..), hb]
      obtain ⟨access₁, htaps⟩ := hrefused taps hf
      obtain ⟨access₂, hnone⟩ := hrefused [] hf'
      exact .inl ⟨.bus f, access₁, access₂, htaps, hnone⟩
    · have hstarted {b : Access Receiver} (ts : List Tap) {made : List Nat}
          (hb : (b.subscribeAll [] (Site.inboxRequests r settings.bus.inboundQos)).1 = .ok made) :
          ∃ begun b', Site.start b ts retry r settings = (.ok begun, b') := by
        unfold Site.start
        rw [hdefect, ← Prod.mk.eta (p := b.subscribeAll ..), hb]
        exact ⟨_, _, rfl⟩
      obtain ⟨tapped, access₁, htapped⟩ := hstarted taps hids
      obtain ⟨plain, access₂, hplain⟩ := hstarted [] hids'
      refine .inr ⟨tapped, plain, access₁, access₂, htapped, hplain, ?_⟩
      obtain ⟨hbus₁, hreliable₁, hrequests₁, hown₁, hsound⟩ := hattached.start hbare htapped
      obtain ⟨hbus₂, hreliable₂, hrequests₂, hown₂, -⟩ := Attached.none.start hbare hplain
      refine ⟨?_, hsound, ⟨hown₁, hreliable₁ hreliable⟩, ⟨hown₂, hreliable₂ hreliable⟩⟩
      rw [Site.eq_of_start htapped, Site.eq_of_start hplain]
      exact ⟨rfl, rfl, rfl, rfl, rfl, rfl, rfl, rfl, hbus₁.trans hbus₂.symm,
        hrequests₁.trans hrequests₂.symm⟩

/-- A conductor starts beside taps just when it starts on the bare bus, with the same refusal
otherwise. After any deeds, those to the taps among them, the site `Agrees` with the one that has
done the same deeds without taps. What a site does by itself is made of deeds (`Leads`). -/
theorem taps_change_nothing :
    (∀ refusal, (Site.start access taps retry r settings).1 = .error refusal ↔
      (Site.start bare [] retry r settings).1 = .error refusal) ∧
    (∀ tapped, (Site.start access taps retry r settings).1 = .ok tapped →
      ∃ plain, (Site.start bare [] retry r settings).1 = .ok plain ∧
        ∀ deeds : List Deed, (Rig.run ⟨tapped, held⟩ deeds).site.Agrees
          (plain.performAll (deeds.filterMap Deed.ofConductor?))) ∧
    ∀ s s' : Site, s.Operation s' → Leads s s' := by
  rcases start_cases hattached hbare hreliable retry r settings with
    ⟨refusal, access₁, access₂, htapped, hplain⟩ |
    ⟨tapped, plain, access₁, access₂, htapped, hplain, htwin⟩
  · rw [htapped, hplain]
    refine ⟨fun _ => Iff.rfl, fun begun heq => ?_, fun s s' h => leads_operation h⟩
    cases heq
  · rw [htapped, hplain]
    refine ⟨fun _ => ⟨nofun, nofun⟩, fun begun heq => ?_, fun s s' h => leads_operation h⟩
    obtain rfl := Except.ok.inj heq
    exact ⟨plain, rfl, fun deeds => (htwin.run deeds).agrees⟩

end

/-- A tap with a sink that never comes back (`Sink.other`), on a bus within the process. -/
theorem taps_change_nothing_stuck_sink :
    let bare : Access Receiver := { carrier := .inProcess {} }
    let tap := Tap.withCapacity 1 (.other (fun _ _ => none) [])
    ∃ access held tapped plain, Attached bare access [tap] held ∧ held.length = 1 ∧
      (Site.start access [tap] .never .stock .stock).1 = .ok tapped ∧
      (Site.start bare [] .never .stock .stock).1 = .ok plain ∧
      ∀ deeds : List Deed, (Rig.run ⟨tapped, held⟩ deeds).site.Agrees
        (plain.performAll (deeds.filterMap Deed.ofConductor?)) := by
  intro bare tap
  have hbare : bare.carrier.subscriptions.entries = [] := rfl
  have hreliable : bare.IsReliable := ⟨rfl, rfl⟩
  obtain ⟨ids, access, tapped, access', hattached, hstart, -⟩ := exists_start_beside_tap bare
    Registry.defect?_stock rfl hreliable 1 (.other (fun _ _ => none) []) .never .stock
  have htapped : (Site.start access [tap] .never .stock .stock).1 = .ok tapped := by rw [hstart]
  obtain ⟨-, hisolated, -⟩ := taps_change_nothing hattached hbare hreliable .never .stock .stock
  obtain ⟨plain, hplain, hagrees⟩ := hisolated tapped htapped
  exact ⟨access, _, tapped, plain, hattached, rfl, htapped, hplain, hagrees⟩

end Rig

end VoiceTurn.Conductor
