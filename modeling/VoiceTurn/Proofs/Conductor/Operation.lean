import VoiceTurn.Proofs.Conductor.Incidents

/-!
# The operations of a site

What a site does by itself, and what others do to it, is made up of the things that can happen
(`Site.exists_reaches_operation`), so whatever holds after everything that can happen holds after
every operation. A site begins with an empty inbox and with routes for the events of its registry
(`Site.isStart_of_start`).
-/

namespace VoiceTurn.Conductor

open Bus (Access Carrier Delivery Failure Message)
open Topic (Registry)

/-! ## Rounds -/

namespace World

variable {σ : Type} [World σ] {P : σ → Prop}

/-- What every `step?` and every `nextRound?` keeps holds after `finishRound`. -/
lemma finishRound_induction (hstep : ∀ s s', P s → step? s = some s' → P s')
    (hround : ∀ s s', P s → nextRound? s = some s' → P s') (steps : Nat) (s : σ) (h : P s) :
    P (finishRound steps s) := by
  induction steps generalizing s with
  | zero => exact h
  | succ steps ih =>
    unfold finishRound
    cases hs : step? s with
    | some s' => exact ih s' (hstep s s' h hs)
    | none =>
      cases hs' : nextRound? s with
      | some s' => exact hround s s' h hs'
      | none => exact h

/-- What every round keeps, and every `setClock`, holds after an `await`. -/
lemma await_induction {steps : Nat} (hround : ∀ s, P s → P (finishRound steps s))
    (hclock : ∀ s t, P s → timer? s = some t → P (setClock s (max t (now s))))
    (isDone : σ → Bool) (rounds : Nat) (s : σ) (h : P s) : P (await isDone steps rounds s) := by
  induction rounds generalizing s with
  | zero => exact h
  | succ rounds ih =>
    have hfinish := hround s h
    unfold await
    simp only
    split_ifs
    · exact hfinish
    · exact ih _ hfinish
    · cases htimer : timer? (finishRound steps s) with
      | none => exact hfinish
      | some t => exact ih _ (hclock _ t hfinish htimer)

end World

namespace Site

variable {s s' : Site}

/-! ## What a site does by itself -/

/-- A `publish` leaves the subscriptions as they are, and delivers to all that match or to
nobody. -/
lemma publish_spec {c c' : Carrier Receiver} {m : Message}
    {result : Except Failure (List (Delivery Receiver))} (h : c.publish m = (result, c')) :
    c'.subscriptions = c.subscriptions ∧
      ∀ ds, result = .ok ds → ds = [] ∨ ds = c.subscriptions.deliveries m := by
  obtain ⟨carrier, htable, ⟨f, hrefused, -⟩ | htaken⟩ := c.publish_eq m
  · rw [h] at hrefused
    cases hrefused
    exact ⟨htable, nofun⟩
  · rw [h] at htaken
    cases htaken
    refine ⟨htable, fun ds hds => ?_⟩
    obtain rfl := Except.ok.inj hds
    rcases c.passedOn_cases m with hnone | hone
    · exact .inl (by rw [hnone]; rfl)
    · exact .inr (by rw [hone, List.flatMap_singleton])

/-- A `readArrived?` leaves the subscriptions as they are, and delivers messages one after the
other. -/
lemma readArrived?_spec {c c' : Carrier Receiver} {ds : List (Delivery Receiver)}
    (h : c.readArrived? = some (ds, c')) :
    c'.subscriptions = c.subscriptions ∧
      ∃ ms : List Message, ds = ms.flatMap c.subscriptions.deliveries := by
  rcases c.readArrived?_eq with ⟨-, hnone⟩ | ⟨carrier, htable, hread⟩
  · rw [h] at hnone
    cases hnone
  · rw [h] at hread
    cases hread
    exact ⟨htable, _, rfl⟩

lemma deliverAll_append (s : Site) (ds es : List (Delivery Receiver)) :
    s.deliverAll (ds ++ es) = (s.deliverAll ds).deliverAll es := List.foldl_append

/-- Messages are handed over one after the other, each as something that `Happens`. -/
lemma exists_reaches_deliverAll (ms : List Message) (s : Site) :
    ∃ log, s.Reaches log (s.deliverAll (ms.flatMap s.access.carrier.subscriptions.deliveries)) := by
  induction ms generalizing s with
  | nil => exact ⟨[], .start⟩
  | cons m ms ih =>
    have haccess := (s.delivered_deliverAll (s.access.carrier.subscriptions.deliveries m)).access
    obtain ⟨log, hlog⟩ := ih (s.deliverAll (s.access.carrier.subscriptions.deliveries m))
    rw [haccess] at hlog
    rw [List.flatMap_cons, deliverAll_append]
    exact ⟨_, (Happens.deliver m).reaches.trans hlog⟩

lemma exists_reaches_readStep? (hstep : s.readStep? = some s') : ∃ log, s.Reaches log s' := by
  unfold readStep? at hstep
  obtain ⟨⟨ds, carrier⟩, hread, rfl⟩ := Option.map_eq_some_iff.1 hstep
  obtain ⟨hsubscriptions, ms, rfl⟩ := readArrived?_spec hread
  obtain ⟨log, hlog⟩ :=
    exists_reaches_deliverAll ms { s with access := { s.access with carrier } }
  have hbus : s.Happens [] { s with access := { s.access with carrier } } :=
    .bus { s.access with carrier } s.subscriptions (.inr fun m => by rw [hsubscriptions])
  simp only [hsubscriptions] at hlog
  exact ⟨_, hbus.reaches.trans hlog⟩

/-- Each `step?` is made up of things that can happen. -/
lemma exists_reaches_step? (halert : s.IsAlert) (hstep : s.step? = some s') :
    ∃ log, s.Reaches log s' := by
  -- the worker is awake, if it has anything to do, wherever it stands in the order
  have hawake {ready yielded : List Part} (hstays : ∀ p, p = Part.worker → s.IsAwake p →
      p ∈ ready ∨ p ∈ yielded) :
      s.workStep? = none ∨ Part.worker ∈ ready ∨ Part.worker ∈ yielded :=
    halert.symm.imp_right (hstays _ rfl)
  cases steps_of_step? hstep with
  | read hread => exact exists_reaches_readStep? hread
  | @giveWay p ps hready =>
    refine ⟨_, (Happens.turn ps (s.yielded ++ [p]) share s.taps (hawake ?_)).reaches⟩
    rintro q - (hq | hq)
    · rw [hready] at hq
      rcases List.mem_cons.1 hq with rfl | hq
      · exact .inr (List.mem_append_right _ List.mem_cons_self)
      · exact .inl hq
    · exact .inr (List.mem_append_left _ hq)
  | @goOn p ps _ hready hpart =>
    cases p with
    | worker =>
      obtain ⟨log, hworks⟩ := exists_works hpart
      exact ⟨_, (Happens.work hpart hworks).reaches⟩
    | tap index =>
      obtain ⟨t, -, t', -, rfl⟩ := tapStep?_eq_some hpart
      exact ⟨_, (Happens.turn s.ready s.yielded (s.left - 1) (s.taps.set index t')
        (hawake fun _ _ h => h)).reaches⟩
  | @rest p ps hready hpart =>
    refine ⟨_, (Happens.turn ps s.yielded share s.taps ?_).reaches⟩
    cases p with
    | worker => exact .inl hpart
    | tap index =>
      refine hawake ?_
      rintro q rfl (hq | hq)
      · rw [hready] at hq
        exact .inl ((List.mem_cons.1 hq).resolve_left fun heq => by cases heq)
      · exact .inr hq

lemma exists_reaches_nextRound? (halert : s.IsAlert) (hround : s.nextRound? = some s') :
    ∃ log, s.Reaches log s' := by
  obtain ⟨-, rfl⟩ := nextRound?_eq_some_iff.1 hround
  refine ⟨_, (Happens.turn (s.ready ++ s.yielded) [] s.left s.taps ?_).reaches⟩
  exact halert.symm.imp_right fun hawake => .inl (List.mem_append.2 hawake)

lemma exists_reaches_trans {log : List Incident} (hlog : s.Reaches log s')
    {s'' : Site} (h : ∃ more, s'.Reaches more s'') : ∃ log, s.Reaches log s'' := by
  obtain ⟨more, hmore⟩ := h
  exact ⟨_, hlog.trans hmore⟩

lemma exists_reaches_finishRound (steps : Nat) (halert : s.IsAlert) :
    ∃ log, s.Reaches log (World.finishRound steps s) := by
  refine World.finishRound_induction (P := fun t => ∃ log, s.Reaches log t) ?_ ?_ steps s
    ⟨[], .start⟩
  · rintro t t' ⟨log, hlog⟩ hstep
    exact exists_reaches_trans hlog (exists_reaches_step? (hlog.isAlert halert) hstep)
  · rintro t t' ⟨log, hlog⟩ hround
    exact exists_reaches_trans hlog (exists_reaches_nextRound? (hlog.isAlert halert) hround)

/-- The clock may go on, though not past `timer?`. -/
lemma happens_setClock {t : Nat} (hforward : s.now ≤ t)
    (htimely : ∀ d ∈ s.timer?, t ≤ max d s.now) : s.Happens [] (s.setClock t) := by
  refine .clock t hforward fun hjob _ d hd => htimely d ?_
  rwa [timer?, hjob]

lemma exists_reaches_await (isDone : Site → Bool) (steps rounds : Nat) (halert : s.IsAlert) :
    ∃ log, s.Reaches log (World.await isDone steps rounds s) := by
  refine World.await_induction (P := fun t => ∃ log, s.Reaches log t) ?_ ?_ isDone rounds s
    ⟨[], .start⟩
  · rintro t ⟨log, hlog⟩
    exact exists_reaches_trans hlog (exists_reaches_finishRound steps (hlog.isAlert halert))
  · rintro t due ⟨log, hlog⟩ htimer
    have htimely : ∀ d ∈ World.timer? t, max due (World.now t) ≤ max d (World.now t) := by
      intro d hd
      rw [htimer] at hd
      rw [Option.mem_some_iff.1 hd]
    exact ⟨_, hlog.trans (happens_setClock (Nat.le_max_right _ _) htimely).reaches⟩

lemma wake_of_isAwake {p : Part} (h : s.IsAwake p) : s.wake p = s := by
  unfold wake
  rw [if_pos (by simpa [IsAwake] using h)]

lemma wake_of_not_isAwake {p : Part} (h : ¬ s.IsAwake p) :
    s.wake p = { s with ready := s.ready ++ [p] } := by
  unfold wake
  rw [if_neg (by simpa [IsAwake] using h)]

lemma wake_wake (s : Site) (p : Part) (inbox : Inbox Event) :
    { s.wake p with inbox }.wake p = { s with inbox }.wake p := by
  by_cases hawake : s.IsAwake p
  · rw [wake_of_isAwake hawake]
  · have hasleep : ¬ IsAwake { s with inbox } p := hawake
    have hawake' : IsAwake { s with inbox, ready := s.ready ++ [p] } p :=
      .inl (List.mem_append_right _ List.mem_cons_self)
    rw [wake_of_not_isAwake hawake, wake_of_not_isAwake hasleep, wake_of_isAwake hawake']

lemma exists_reaches_enterGranted (s : Site) :
    ∃ log, s.Reaches log ({ s with inbox := s.inbox.enterGranted }.wake .worker) := by
  generalize hgranted : s.inbox.granted = granted
  induction granted generalizing s with
  | nil =>
    have hinbox : s.inbox.enterGranted = s.inbox := by
      rw [Inbox.enterGranted, hgranted, List.append_nil, ← hgranted]
    rw [hinbox]
    obtain ⟨ready, hready⟩ := wake_eq s .worker
    have hawake := isAwake_wake s .worker
    rw [hready] at hawake ⊢
    exact ⟨_, (Happens.turn ready s.yielded s.left s.taps (.inr hawake)).reaches⟩
  | cons e granted ih =>
    generalize hentered : { s.inbox with items := s.inbox.items ++ [e], granted } = entered
    have hfirst : s.inbox.granted = [] ++ e :: granted := hgranted
    have htake : s.Reaches [.entered e] ({ s with inbox := entered }.wake .worker) := by
      rw [← hentered]
      exact (Happens.takePlace hfirst).reaches
    have hinbox : ({ s with inbox := entered }.wake .worker).inbox = entered := by
      obtain ⟨ready, hready⟩ := wake_eq { s with inbox := entered } .worker
      rw [hready]
    obtain ⟨log, hlog⟩ := ih ({ s with inbox := entered }.wake .worker)
      (by rw [hinbox, ← hentered])
    rw [wake_wake, hinbox] at hlog
    have hall : entered.enterGranted = s.inbox.enterGranted := by
      rw [Inbox.enterGranted, Inbox.enterGranted, ← hentered, hgranted, List.append_assoc]
      rfl
    rw [hall] at hlog
    exact ⟨_, htake.trans hlog⟩

/-- An `inject`, with the wait for a place, is made up of things that can happen. -/
lemma exists_reaches_inject (e : Event) (steps : Nat) (halert : s.IsAlert) :
    ∃ log, s.Reaches log (s.inject e steps).2 := by
  unfold inject
  split
  · exact ⟨[], .start⟩
  · next hsend => exact ⟨_, (Happens.enter hsend).reaches⟩
  · next inbox hsend =>
    have hline := (Happens.lineUp hsend).reaches
    obtain ⟨log, hlog⟩ := exists_reaches_await (fun t : Site => t.inbox.waiting.isEmpty) steps steps
      (hline.isAlert halert)
    simp only
    split_ifs
    · exact ⟨_, hline.trans hlog⟩
    · obtain ⟨more, hmore⟩ := exists_reaches_enterGranted
        (World.await (fun t : Site => t.inbox.waiting.isEmpty) steps steps { s with inbox })
      exact ⟨_, hline.trans (hlog.trans hmore)⟩

lemma exists_reaches_post (m : Message) : ∃ log, s.Reaches log (s.post m).2 := by
  unfold post
  generalize hpublish : s.access.carrier.publish m = answer
  obtain ⟨result, carrier⟩ := answer
  obtain ⟨hsubscriptions, hdeliveries⟩ := publish_spec hpublish
  have hbus : s.Reaches [] { s with access := { s.access with carrier } } :=
    (Happens.bus { s.access with carrier } s.subscriptions
      (.inr fun m => by rw [hsubscriptions])).reaches
  cases result with
  | error f => exact ⟨_, hbus⟩
  | ok ds =>
    rcases hdeliveries ds rfl with rfl | rfl
    · exact ⟨_, hbus⟩
    · have hdeliver := Happens.deliver (s := { s with access := { s.access with carrier } }) m
      simp only [hsubscriptions] at hdeliver
      exact ⟨_, hbus.trans hdeliver.reaches⟩

/-- Something that is done by a site or to it: a `step?`, a `nextRound?`, a `post`, an `inject`, or
a clock that goes on, though not past `timer?`. -/
inductive Operation (s : Site) : Site → Prop where
  | step {s' : Site} (h : s.step? = some s') : s.Operation s'
  | nextRound {s' : Site} (h : s.nextRound? = some s') : s.Operation s'
  | post (m : Message) : s.Operation (s.post m).2
  | inject (e : Event) (steps : Nat) : s.Operation (s.inject e steps).2
  | clock (t : Nat) (hforward : s.now ≤ t) (htimely : ∀ d ∈ s.timer?, t ≤ max d s.now) :
    s.Operation (s.setClock t)

lemma exists_reaches_operation (h : s.Operation s') (halert : s.IsAlert) :
    ∃ log, s.Reaches log s' := by
  cases h with
  | step hstep => exact exists_reaches_step? halert hstep
  | nextRound hround => exact exists_reaches_nextRound? halert hround
  | post m => exact exists_reaches_post m
  | inject e steps => exact exists_reaches_inject e steps halert
  | clock t hforward htimely => exact ⟨_, (happens_setClock hforward htimely).reaches⟩

/-! ## The start -/

/-- What a site is like after `start`. -/
structure IsStart (s : Site) (r : Registry) (settings : Settings) : Prop where
  worker : s.worker = ⟨r, settings.bus.outboundQos, settings.machine, {}, {}, .waiting⟩
  inbox : s.inbox = .withCapacity settings.turn.queueCapacity.toNat
  now : s.now = 0
  unstopped : s.isStopping = false
  unpaused : s.pausedUntil = none
  awake : s.IsAwake .worker

lemma IsStart.isAlert {r : Registry} {settings : Settings} (h : s.IsStart r settings) : s.IsAlert :=
  .inl h.awake

section
variable {access access' : Access Receiver} {taps : List Tap} {retry : Bus.Retry} {r : Registry}
  {settings : Settings} (hstart : start access taps retry r settings = (.ok s, access'))
include hstart

/-- All of a site that starts but its `access` and its `subscriptions` is known. -/
lemma eq_of_start : s = {
    access := s.access, taps, retry, subscriptions := s.subscriptions
    ready := (List.range taps.length).map .tap ++ [.worker]
    worker := ⟨r, settings.bus.outboundQos, settings.machine, {}, {}, .waiting⟩
    inbox := .withCapacity settings.turn.queueCapacity.toNat
    feed := .withCapacity settings.turn.feedCapacity.toNat } := by
  unfold start at hstart
  split at hstart
  · cases hstart
  · split at hstart <;> cases hstart
    rfl

lemma isStart_of_start : s.IsStart r settings := by
  rw [eq_of_start hstart]
  exact ⟨rfl, rfl, rfl, rfl, rfl, .inl (List.mem_append_right _ List.mem_cons_self)⟩

/-- When a site starts beside nobody but taps, a message enters its inbox as `Registry.eventOf?` of
the registry, and as nothing else. -/
lemma eventsOf_of_start (htaps : ∀ q ∈ requestsOf access.carrier.subscriptions, isForTap q = true)
    (m : Message) : eventsOf (s.access.carrier.subscriptions.deliveries m) =
      (r.eventOf? m).toList := by
  obtain ⟨hdefect, hrequests⟩ := requestsOf_start hstart
  exact eventsOf_deliveries hdefect htaps hrequests m

end

lemma exists_start {r : Registry} (hr : r.defect? = none) (settings : Settings) :
    ∃ s access', start { carrier := .link {} } [] .never r settings = (.ok s, access') := by
  obtain ⟨s, access', hstart, -⟩ := exists_start_of_open { carrier := .link {} } hr rfl ⟨rfl, rfl⟩
    [] .never settings
  exact ⟨s, access', hstart⟩

end Site

end VoiceTurn.Conductor
