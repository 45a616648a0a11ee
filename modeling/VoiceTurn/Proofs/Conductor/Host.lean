import VoiceTurn.Conductor.Host
import VoiceTurn.Proofs.Conductor.Operation
import VoiceTurn.Proofs.Settings.Validity

/-!
# What a host answers

With valid settings a host starts and serves its link (`Host.exists_start`), whether or not it has a
tap. Whatever happens then, up to an order to stop or the end of the input, it goes on serving
(`Host.serves_of_reaches`). It comes to rest whenever nothing new happens
(`Host.Serves.exists_isSettled`), and then its output depends on its input alone.
-/

namespace VoiceTurn

open Bus (Access Carrier Request Subscriptions)
open Line (Link)
open Topic (Registry)

namespace Conductor

/-! ## Starting -/

namespace Host

/-- A host at work on an input: nobody has told it to stop, and its site `Serves` the link. -/
structure Serves (r : Registry) (m : Machine) (limit : Nat) (input : Bytes) (h : Host) : Prop where
  stage : h.stage = .running
  untold : h.isToldToStop = false
  site : ∃ consumed arrived l, consumed ++ arrived = input ∧
    h.site.Serves r m limit consumed arrived l

/-- What `startTap` asks for, if there is to be a tap. -/
def tapRequests (settings : Settings) (r : Registry) : List (Request Receiver) :=
  if settings.tap.enabled then Site.tapRequests r 0 else []

lemma isForTap_of_mem_tapRequests {settings : Settings} {r : Registry} :
    ∀ q ∈ tapRequests settings r, isForTap q = true := by
  intro q hq
  unfold tapRequests at hq
  split_ifs at hq
  · obtain ⟨c, -, rfl⟩ := List.mem_map.1 hq
    rfl
  · cases hq

/-- On an open bus that `IsReliable`, `startTap` succeeds. -/
lemma exists_startTap (settings : Settings) {r : Registry} (hr : r.defect? = none)
    {access : Access Receiver} (hopen : access.carrier.isClosed = false)
    (hreliable : access.IsReliable) :
    ∃ tap access' taps, startTap settings r access = (.ok tap, access', taps) ∧
      access'.IsReliable ∧ access'.carrier = access.carrier.withSubscriptions
        (access.carrier.subscriptions.grantAll (tapRequests settings r)) ∧
      tap.map (·.subscriptions.length) =
        if settings.tap.enabled then some Tap.cues.length else none := by
  unfold startTap tapRequests
  split_ifs
  · obtain ⟨ids, access', heq, hreliable', hcarrier, hids⟩ := Site.exists_attachTo access hr
      hopen hreliable [] (.withCapacity settings.tap.capacity.toNat .log)
    refine ⟨some ⟨0, ids⟩, access', [.withCapacity settings.tap.capacity.toNat .log], ?_,
      hreliable', hcarrier, congrArg some hids⟩
    simp only [heq]
    rfl
  · exact ⟨none, access, [], rfl, hreliable, by simp [Subscriptions.grantAll], rfl⟩

/-- With a valid registry `Host.start` succeeds on a link that has not been started: the tap, if
there is to be one, subscribes before the conductor, and then the link is started. -/
lemma exists_start_on {settings : Settings} {r : Registry} (hr : r.defect? = none)
    (hregistry : settings.topics.registry = .ok r) {link : Link Receiver}
    (hunstarted : link.reader = .unstarted) :
    ∃ site tap, Host.start settings link = .ok (mapLink { site, tap } fun l => l.start.2) ∧
      site.IsStart r settings ∧ site.access.carrier = .link { link with
        limit := max settings.bus.maxLine.toNat 1
        subscriptions := link.subscriptions.grantAll
          (tapRequests settings r ++ Site.inboxRequests r settings.bus.inboundQos) } ∧
      site.subscriptions.length = Cue.all.length ∧
      tap.map (·.subscriptions.length) =
        if settings.tap.enabled then some Tap.cues.length else none := by
  have hopen (limit : Nat) : Carrier.isClosed (.link { link with limit }) = false := by
    simp only [Carrier.isClosed, Link.isClosed, hunstarted]
  have hunordered (carrier : Carrier Receiver) : Access.IsReliable { carrier } := ⟨rfl, rfl⟩
  obtain ⟨tap, access, taps, htap, hreliable, hcarrier, hlength⟩ := exists_startTap settings hr
    (hopen (max settings.bus.maxLine.toNat 1)) (hunordered _)
  have hopen' : access.carrier.isClosed = false := by
    rw [hcarrier, Carrier.isClosed_withSubscriptions, hopen]
  obtain ⟨site, access', hstart, hsite, hfive⟩ :=
    Site.exists_start_of_open access hr hopen' hreliable taps settings.bus.retry.policy settings
  refine ⟨site, tap, ?_, Site.isStart_of_start hstart, ?_, hfive, hlength⟩
  · unfold Host.start
    simp only [hregistry, htap, hstart]
  · rw [hsite, hcarrier, Carrier.subscriptions_withSubscriptions,
      Carrier.withSubscriptions_withSubscriptions, Subscriptions.grantAll_append]
    rfl

/-- A host starts, and `Serves` the link from its first byte on. -/
lemma exists_start {settings : Settings} {r : Registry} (hr : r.defect? = none)
    (hregistry : settings.topics.registry = .ok r) (hpatience : 0 < settings.machine.patience)
    (hlimit : 0 < settings.bus.maxLine.toNat) :
    ∃ start, Host.start settings {} = .ok start ∧
      start.Serves r settings.machine settings.bus.maxLine.toNat [] := by
  have hmax : max settings.bus.maxLine.toNat 1 = settings.bus.maxLine.toNat := by omega
  have hunstarted : ({} : Link Receiver).reader = .unstarted := rfl
  obtain ⟨site, tap, hstart, hbegun, hcarrier, -, -⟩ := exists_start_on hr hregistry hunstarted
  rw [hmax] at hcarrier
  refine ⟨_, hstart, ?_⟩
  have hroutes := eventsOf_deliveries hr isForTap_of_mem_tapRequests
    (requestsOf_grantAll ({} : Subscriptions Receiver)
      (tapRequests settings r ++ Site.inboxRequests r settings.bus.inboundQos))
  -- only the routes of the table matter from here on
  generalize Subscriptions.grantAll ({} : Subscriptions Receiver) (tapRequests settings r ++
    Site.inboxRequests r settings.bus.inboundQos) = t at hcarrier hroutes
  have hlink : Link.HasRead settings.bus.maxLine.toNat [] []
      (Link.start { subscriptions := t, limit := settings.bus.maxLine.toNat }).2 :=
    .start rfl ⟨rfl, rfl⟩ rfl rfl
  have hahead : site.worker.machine.IsAhead site.now := by
    rw [hbegun.worker]
    exact ⟨hpatience, fun d hd => absurd hd (Option.not_mem_none d)⟩
  have hbalance : site.Balances r settings.machine settings.bus.maxLine.toNat [] [] := by
    refine ⟨[], ?_, ?_, ?_⟩
    · rw [hbegun.inbox]
      rfl
    · rw [hbegun.worker]
      rfl
    · rw [hbegun.worker]
      rfl
  have hserves : Site.Serves r settings.machine settings.bus.maxLine.toNat [] []
      (Link.start { subscriptions := t, limit := settings.bus.maxLine.toNat }).2
      (mapLink { site, tap } fun l => l.start.2).site := by
    simp only [mapLink, hcarrier]
    exact {
      carrier := rfl
      link := hlink
      routes := hroutes
      registry := by rw [hbegun.worker]
      atWork := by
        rw [hbegun.worker]
        rfl
      unstopped := hbegun.unstopped
      unpaused := hbegun.unpaused
      inboxOpen := by
        rw [hbegun.inbox]
        rfl
      nobodyWaits := by
        rw [hbegun.inbox]
        rfl
      ahead := hahead
      awake := .inl hbegun.awake
      balance := fun _ => hbalance }
  refine ⟨?_, ?_, [], [], _, rfl, hserves⟩
  · simp only [mapLink, hcarrier]
  · simp only [mapLink, hcarrier]

lemma exists_start_of_validate {settings : Settings} (hvalid : settings.validate = .ok ()) :
    ∃ r, settings.topics.registry = .ok r ∧ ∀ enabled, ∃ start,
      Host.start { settings with tap := { settings.tap with enabled } } {} = .ok start ∧
      start.Serves r settings.machine settings.bus.maxLine.toNat [] := by
  obtain ⟨⟨r, hr, hdefect⟩, hstall, hline, -⟩ := Settings.validate_spec hvalid
  have hpatience : 0 < settings.machine.patience := Settings.toNat_pos hstall
  have hroom : 0 < settings.bus.maxLine.toNat := Settings.toNat_pos hline
  -- starting looks at nothing of the tap's settings but whether there is one
  exact ⟨r, hr, fun enabled => exists_start hdefect hr hpatience hroom⟩

/-! ## What can happen -/

/-- Where a host can be once the given bytes have arrived. Its parts make any number of steps at any
moment, and the clock may be set to any instant before the deadline of the session. -/
inductive Reaches (start : Host) : Bytes → Host → Prop where
  | start : Reaches start [] start
  | arrive {input : Bytes} {h : Host} (chunk : Bytes) (hreach : Reaches start input h) :
      Reaches start (input ++ chunk) (h.mapLink fun l => l.arrive chunk)
  | step {input : Bytes} {h h' : Host} (hreach : Reaches start input h)
      (hstep : World.step? h = some h') : Reaches start input h'
  | nextRound {input : Bytes} {h h' : Host} (hreach : Reaches start input h)
      (hround : World.nextRound? h = some h') : Reaches start input h'
  | setClock {input : Bytes} {h : Host} (t : Nat) (hreach : Reaches start input h)
      (hdeadline : ∀ d ∈ h.site.worker.machine.deadline?, t < d) :
      Reaches start input (World.setClock h t)

/-- Neither `step?` nor `nextRound?` is left, until something arrives or the clock goes on. -/
def IsSettled (h : Host) : Prop := World.step? h = none ∧ World.nextRound? h = none

lemma isSettled_iff {h : Host} :
    h.IsSettled ↔ (World.step? h <|> World.nextRound? h) = none := by
  show _ ↔ (World.step? h).orElse _ = none
  rw [Option.orElse_eq_or, Option.or_eq_none_iff, IsSettled]

lemma step_or_nextRound {h h' : Host} (hnext : (World.step? h <|> World.nextRound? h) = some h') :
    World.step? h = some h' ∨ World.nextRound? h = some h' :=
  (Option.or_eq_some_iff.1 (Option.orElse_eq_or.symm.trans hnext)).imp_right And.right

/-- A `World.settle` is one of the things that can happen. -/
lemma Reaches.settle {start h : Host} {input : Bytes} (hreach : start.Reaches input h)
    (steps : Nat) : start.Reaches input (World.settle steps h) := by
  induction steps generalizing h with
  | zero => exact hreach
  | succ steps ih =>
    unfold World.settle
    cases hnext : (World.step? h <|> World.nextRound? h) with
    | none => exact hreach
    | some h' => exact ih ((step_or_nextRound hnext).elim hreach.step hreach.nextRound)

lemma step?_of_running {h : Host} (hstage : h.stage = .running) :
    World.step? h = match h.site.step? with
      | some site => some { h with site }
      | none => h.stageStep? := by
  show Host.step? h = _
  unfold Host.step?
  split
  · next hfinished => cases hstage.symm.trans hfinished
  · rfl

namespace Serves

variable {r : Registry} {m : Machine} {limit : Nat} {input : Bytes} {h h' : Host}

lemma arrive (hserves : h.Serves r m limit input) (chunk : Bytes) :
    (h.mapLink fun l => l.arrive chunk).Serves r m limit (input ++ chunk) := by
  obtain ⟨hstage, huntold, consumed, arrived, l, hinput, hsite⟩ := hserves
  have hmap : h.mapLink (fun l => l.arrive chunk) =
      { h with site := { h.site with access := { h.site.access with
          carrier := .link (l.arrive chunk) } } } := by
    unfold mapLink
    rw [hsite.carrier]
  rw [hmap]
  refine ⟨hstage, huntold, consumed, arrived ++ chunk, l.arrive chunk, ?_, ?_⟩
  · rw [← List.append_assoc, hinput]
  · exact { hsite with carrier := rfl, link := hsite.link.arrive chunk }

/-- Before the input has ended, a step of a host is a `Site.Move` of its site. -/
lemma exists_move_of_step? (hserves : h.Serves r m limit input) (hstep : World.step? h = some h') :
    ∃ site, h.site.Move site ∧ { h with site } = h' := by
  obtain ⟨hstage, huntold, _, _, _, -, hsite⟩ := hserves
  rw [step?_of_running hstage] at hstep
  cases hnext : h.site.step? with
  | some site =>
    rw [hnext] at hstep
    exact ⟨site, hsite.move_of_step? hnext, Option.some.inj hstep⟩
  | none =>
    -- the stage does not change: nobody has told the host to stop, and the input goes on
    have hopen : h.isInputClosed = false := by
      rw [isInputClosed, link?, hsite.carrier]
      exact hsite.link.isClosed
    rw [hnext] at hstep
    simp [stageStep?, hstage, huntold, hopen] at hstep

lemma exists_move_of_nextRound? (hround : World.nextRound? h = some h') :
    ∃ site, h.site.Move site ∧ { h with site } = h' := by
  obtain ⟨site, hnext, heq⟩ := Option.map_eq_some_iff.1 hround
  exact ⟨site, Site.move_of_nextRound? hnext, heq⟩

lemma move (hserves : h.Serves r m limit input) (hlimit : limit + 1 < UInt64.size) {site : Site}
    (hmove : h.site.Move site) : { h with site }.Serves r m limit input := by
  obtain ⟨hstage, huntold, consumed, arrived, l, hinput, hsite⟩ := hserves
  obtain ⟨consumed', arrived', l', hinput', hsite', -⟩ := hsite.move hlimit hmove
  exact ⟨hstage, huntold, consumed', arrived', l', hinput'.trans hinput, hsite'⟩

lemma setClock (hserves : h.Serves r m limit input) {t : Nat}
    (hdeadline : ∀ d ∈ h.site.worker.machine.deadline?, t < d) :
    (World.setClock h t).Serves r m limit input := by
  obtain ⟨hstage, huntold, consumed, arrived, l, hinput, hsite⟩ := hserves
  have hsite' : { h.site with now := t }.Serves r m limit consumed arrived l :=
    { hsite with ahead := ⟨hsite.ahead.1, hdeadline⟩ }
  have hawake := Site.isAwake_wake { h.site with now := t } .worker
  obtain ⟨ready, hwake⟩ := Site.wake_eq { h.site with now := t } .worker
  refine ⟨hstage, huntold, consumed, arrived, l, hinput, ?_⟩
  show Site.Serves r m limit consumed arrived l ({ h.site with now := t }.wake .worker)
  rw [hwake] at hawake ⊢
  exact hsite'.reschedule h.site.left h.site.taps (.inl hawake)

end Serves

/-- Wherever a host that has started can be, it `Serves` its link. -/
lemma serves_of_reaches {r : Registry} {m : Machine} {limit : Nat} {start h : Host} {input : Bytes}
    (hlimit : limit + 1 < UInt64.size) (hstart : start.Serves r m limit [])
    (hreach : start.Reaches input h) : h.Serves r m limit input := by
  induction hreach with
  | start => exact hstart
  | arrive chunk _ ih => exact ih.arrive chunk
  | step _ hstep ih =>
    obtain ⟨site, hmove, rfl⟩ := ih.exists_move_of_step? hstep
    exact ih.move hlimit hmove
  | nextRound _ hround ih =>
    obtain ⟨site, hmove, rfl⟩ := Serves.exists_move_of_nextRound? hround
    exact ih.move hlimit hmove
  | setClock t _ hdeadline ih => exact ih.setClock hdeadline

/-! ## Coming to rest -/

/-- A host that `Serves` its link `IsSettled` after finitely many steps. -/
lemma Serves.exists_isSettled {r : Registry} {m : Machine} {limit : Nat} {input : Bytes} {h : Host}
    (hserves : h.Serves r m limit input) (hlimit : limit + 1 < UInt64.size) :
    ∃ steps, (World.settle steps h).IsSettled := by
  obtain ⟨hstage, huntold, consumed, arrived, l, hinput, hsite⟩ := hserves
  -- the induction is on what is left to do, which every move reduces
  generalize hbacklog : h.site.backlog arrived = backlog
  induction backlog using WellFoundedLT.induction generalizing h consumed arrived l with
  | ind backlog ih =>
    subst hbacklog
    have hserves : h.Serves r m limit input :=
      ⟨hstage, huntold, consumed, arrived, l, hinput, hsite⟩
    cases hnext : (World.step? h <|> World.nextRound? h) with
    | none => exact ⟨0, isSettled_iff.2 hnext⟩
    | some h' =>
      obtain ⟨site, hmove, rfl⟩ : ∃ site, h.site.Move site ∧ { h with site } = h' :=
        (step_or_nextRound hnext).elim hserves.exists_move_of_step? exists_move_of_nextRound?
      obtain ⟨consumed', arrived', l', hinput', hsite', hless⟩ := hsite.move hlimit hmove
      obtain ⟨steps, hsettled⟩ := ih (site.backlog arrived') hless (h := { h with site })
        hstage huntold consumed' arrived' l' (hinput'.trans hinput) hsite' rfl
      refine ⟨steps + 1, ?_⟩
      unfold World.settle
      rw [hnext]
      exact hsettled

/-! ## The result -/

/-- A host with valid settings starts, with a tap or without one, and can come to rest from
everywhere. At rest (`IsSettled`), when no event has been lost and the deadline has not come, it has
written the lines of exactly the commands that the machine alone gives for the events in its
input. -/
theorem output_is_answer {settings : Settings} (hvalid : settings.validate = .ok ())
    (hlimit : settings.bus.maxLine.toNat + 1 < UInt64.size) :
    ∃ r, settings.topics.registry = .ok r ∧ ∀ enabled, ∃ start,
      Host.start { settings with tap := { settings.tap with enabled } } {} = .ok start ∧
      ∀ (input : Bytes) (host : Host), start.Reaches input host →
        (∃ steps, start.Reaches input (World.settle steps host) ∧
          (World.settle steps host).IsSettled) ∧
        ∀ timed : List (Event × Nat), host.IsSettled → host.site.inbox.overflows = 0 →
          timed.map Prod.fst = r.eventsIn settings.bus.maxLine.toNat input →
          let commands :=
            settings.machine.commandLog (settings.machine.schedule (timed.map .ofTimed))
          (∀ c ∈ commands, (r.ofCommand? c.target c.action).isSome) ∧
            host.link?.map Link.output = some (commands.filterMap r.lineOf?).flatten := by
  obtain ⟨r, hr, hstarts⟩ := exists_start_of_validate hvalid
  refine ⟨r, hr, fun enabled => ?_⟩
  obtain ⟨start, hstart, hserves⟩ := hstarts enabled
  refine ⟨start, hstart, ?_⟩
  intro input host hreach
  have hserves := serves_of_reaches hlimit hserves hreach
  constructor
  · obtain ⟨steps, hsettled⟩ := hserves.exists_isSettled hlimit
    exact ⟨steps, hreach.settle steps, hsettled⟩
  intro timed hsettled hoverflows htimed commands
  have htopics : ∀ c ∈ commands, (r.ofCommand? c.target c.action).isSome := by
    intro c hc
    rw [Registry.ofCommand?, Option.isSome_map]
    exact Machine.hasSlot_of_mem_commandLog hc
  obtain ⟨hstage, -, consumed, arrived, l, rfl, hsite⟩ := hserves
  have hstep : host.site.step? = none := by
    have hnone := hsettled.1
    rw [step?_of_running hstage] at hnone
    cases hnext : host.site.step? with
    | none => rfl
    | some site => rw [hnext] at hnone; cases hnone
  have hround : host.site.nextRound? = none := Option.map_eq_none_iff.1 hsettled.2
  have houtput := hsite.output_of_settled hlimit hstep hround hoverflows htimed
  refine ⟨htopics, ?_⟩
  rw [link?, hsite.carrier, ← houtput]
  rfl

theorem output_is_answer_to_wake_word :
    ∃ start host, Host.start .stock {} = .ok start ∧
      start.Reaches (Utf8.encode "rhasspy/wake-word/detected\n") host ∧ host.IsSettled ∧
      host.link?.map Link.output = some (Utf8.encode ("rhasspy/wake-word/stop-listening\n" ++
        "rhasspy/voice-command/start-listening\n" ++
        "rhasspy/speech-to-text/start-listening\n")) := by
  generalize hinput : Utf8.encode "rhasspy/wake-word/detected\n" = input
  have hvalid := Settings.validate_stock
  have hstock :
      { Settings.stock with tap := { Settings.stock.tap with enabled := true } } = .stock := rfl
  obtain ⟨r, hr, hstarts⟩ := output_is_answer hvalid (by decide)
  obtain ⟨start, hstart, hanswer⟩ := hstarts true
  rw [hstock] at hstart
  obtain rfl : Registry.stock = r := Except.ok.inj hr
  have hreach : start.Reaches input (World.settle 40 (start.mapLink fun l => l.arrive input)) :=
    (Reaches.start.arrive input).settle 40
  have hrests : ((Host.start .stock {}).toOption.any fun start =>
      let host := World.settle 40 (start.mapLink fun l => l.arrive input)
      (World.step? host).isNone && (World.nextRound? host).isNone &&
        host.site.inbox.overflows = 0) = true := by
    rw [← hinput]
    decide +kernel
  rw [hstart] at hrests
  simp only [Except.toOption, Option.any_some, Bool.and_eq_true, Option.isNone_iff_eq_none,
    decide_eq_true_eq] at hrests
  have hsettled : IsSettled (World.settle 40 (start.mapLink fun l => l.arrive input)) := hrests.1
  have hevents : [((⟨.wakeDetected, []⟩ : Event), 0)].map Prod.fst =
      Registry.stock.eventsIn Settings.stock.bus.maxLine.toNat input := by
    rw [← hinput]
    decide +kernel
  have houtput := ((hanswer input _ hreach).2 _ hsettled hrests.2 hevents).2
  refine ⟨start, _, hstart, hreach, hsettled, houtput.trans ?_⟩
  decide +kernel

end Host

end Conductor

end VoiceTurn
