import VoiceTurn.Proofs.Conductor.Unfolding

/-!
# The end of the input

A host whose input has ended tells its worker to stop. What the worker has turned to by then is
carried out, and what is still in the queue is dropped (`Host.end_of_input_drops_what_is_queued`).
This holds in whatever order the reader, the worker, the taps and the host take turns, and however
long each of them takes.
-/

namespace VoiceTurn

open Bus (Access Carrier Delivery Failure Message)
open Line (Link)
open Topic (Registry)

/-- What is published on a link is handed over to nobody. -/
lemma Bus.Carrier.publish_link {ρ : Type} {l : Link ρ} {m : Message} {c : Carrier ρ}
    {result : Except Failure (List (Delivery ρ))} (h : (Carrier.link l).publish m = (result, c)) :
    c = .link (l.publish m).2 ∧ ∀ ds, result = .ok ds → ds = [] := by
  simp only [publish] at h
  cases hresult : (l.publish m).1 with
  | error f =>
    rw [hresult] at h
    cases h
    refine ⟨rfl, fun ds hds => ?_⟩
    cases hds
  | ok u =>
    rw [hresult] at h
    cases h
    exact ⟨rfl, fun ds hds => (Except.ok.inj hds).symm⟩

namespace Conductor

/-- While the worker goes on, `Site.access` changes only when it publishes, and nothing enters the
inbox but what is handed over then. -/
lemma Site.Works.access_cases {s s' : Site} {more : List Incident} (h : s.Works more s') :
    (s'.access = s.access ∧ more.filterMap Incident.entrant? = []) ∨
    ∃ m result c, s.access.carrier.publish m = (result, c) ∧ s'.access.carrier = c ∧
      ((∀ ds, result = .ok ds → ds = []) → more.filterMap Incident.entrant? = []) := by
  have hnoted {i : Incident} (hi : i.entrant? = none) (notices : List Notice) :
      (i :: notices.map .noted).filterMap Incident.entrant? = [] := by
    rw [List.filterMap_cons_none hi, Incident.filterMap_map_noted fun _ => rfl]
  cases h with
  | stop => exact .inl ⟨rfl, rfl⟩
  | handle | expire => exact .inl ⟨rfl, hnoted rfl _⟩
  | @send c topic rest ending ds carrier left hjob hpublish =>
    refine .inr ⟨_, _, _, hpublish, ?_, fun hnobody => ?_⟩
    · exact congrArg Access.carrier (delivered_deliverAll { s with
        access := { s.access with carrier }, pausedUntil := none, left } ds).access
    · rw [hnobody ds rfl, Inbox.incidentsOf, List.nil_append]
      exact hnoted rfl _
  | pause left pause hjob hpublish => exact .inr ⟨_, _, _, hpublish, rfl, fun _ => rfl⟩
  | giveUp left hjob hpublish => exact .inr ⟨_, _, _, hpublish, rfl, fun _ => hnoted rfl _⟩

namespace Host

variable {h h' : Host} {log more : List Incident}

/-! ## Nothing enters any more -/

lemma isInputClosed_iff :
    h.isInputClosed = true ↔ ∃ l, h.site.access.carrier = .link l ∧ l.isClosed = true := by
  unfold isInputClosed link?
  cases h.site.access.carrier with
  | inProcess b => simp
  | link l => simp

/-- Nothing enters once `isInputClosed` holds. -/
lemma Happens.isInputClosed (hhappens : h.Happens more h') (hclosed : h.isInputClosed = true) :
    h'.isInputClosed = true ∧ more.filterMap Incident.entrant? = [] := by
  obtain ⟨l, hlink, hended⟩ := isInputClosed_iff.1 hclosed
  cases hhappens with
  | deliver m hopen =>
    rw [hclosed] at hopen
    cases hopen
  | link l' hlink' hsubscriptions hclosed' =>
    cases hlink.symm.trans hlink'
    exact ⟨isInputClosed_iff.2 ⟨l', rfl, hclosed' hended⟩, rfl⟩
  | work hstep hworks =>
    rcases hworks.access_cases with ⟨haccess, hnone⟩ | ⟨m, result, c, hpublish, hcarrier, hnone⟩
    · refine ⟨isInputClosed_iff.2 ⟨l, ?_, hended⟩, hnone⟩
      rw [haccess, hlink]
    · rw [hlink] at hpublish
      obtain ⟨rfl, hnobody⟩ := Carrier.publish_link hpublish
      have hended' := (l.keeps_publish m).isClosed.trans hended
      exact ⟨isInputClosed_iff.2 ⟨_, hcarrier, hended'⟩, hnone hnobody⟩
  | turn | tell => exact ⟨hclosed, rfl⟩
  | clock t =>
    refine ⟨isInputClosed_iff.2 ⟨l, ?_, hended⟩, rfl⟩
    rw [Site.setClock, Site.access_wake]
    exact hlink
  | stage hstage =>
    refine ⟨isInputClosed_iff.2 ?_, rfl⟩
    rcases stageStep?_cases hstage with rfl | ⟨⟨-, ⟨t, hcarrier⟩⟩, -⟩
    · refine ⟨l, ?_, hended⟩
      simp only [Site.orderStop, Site.access_wake]
      exact hlink
    · rw [hcarrier, hlink]
      exact ⟨_, rfl, hended⟩

lemma Unfolds.isInputClosed (hunfolds : h.Unfolds more h') (hclosed : h.isInputClosed = true) :
    h'.isInputClosed = true ∧ more.filterMap Incident.entrant? = [] := by
  induction hunfolds with
  | start => exact ⟨hclosed, rfl⟩
  | next _ hnext ih =>
    obtain ⟨hclosed', hnone⟩ := ih
    obtain ⟨hclosed'', hnone'⟩ := hnext.isInputClosed hclosed'
    rw [List.filterMap_append, hnone, hnone']
    exact ⟨hclosed'', rfl⟩

/-! ## Nothing is taken any more -/

/-- After `orderStop` the worker turns to nothing. -/
lemma Unfolds.unroused (hunfolds : h.Unfolds more h') (hordered : h.site.isStopping = true) :
    h'.site.isStopping = true ∧ ∀ i ∈ more, i.isRousing = false := by
  induction hunfolds with
  | start => exact ⟨hordered, List.forall_mem_nil _⟩
  | next _ hnext ih =>
    obtain ⟨hordered', hunroused⟩ := ih
    rcases hnext.site_cases with hsite | ⟨rfl, hsite⟩
    · refine ⟨hsite.isStopping hordered', fun i hi => ?_⟩
      exact (List.mem_append.1 hi).elim (hunroused i) (hsite.unroused hordered' i)
    · rw [List.append_nil, hsite.isStopping]
      exact ⟨hordered', hunroused⟩

/-- Once the host has a `result?`, all commands of what the worker has turned to have been dealt
with. -/
lemma IsInOrder.commandsSent_eq {capacity : Nat} (hinOrder : h.IsInOrder capacity log)
    (hresult : h.result?.isSome = true) : commandsSent log = commandsOf log := by
  have hdetaching : h.isDetaching = true := by
    unfold result? at hresult
    unfold isDetaching
    cases hstage : h.stage with
    | running | stopping | flushing => simp [hstage] at hresult
    | finished result => rfl
  have hkeepsUp := hinOrder.keepsUp
  rwa [Site.KeepsUp, Worker.pending_of_isStopped (hinOrder.detaching hdetaching), List.map_nil,
    List.append_nil] at hkeepsUp

/-! ## The result -/

/-- What has entered the queue by the end of the input is what the worker takes up before
`stageStep?` orders it to stop, in order, and what is in the queue then. From there on nothing
enters and nothing is taken up; when there is a `result?`, the commands of everything taken up have
been dealt with. -/
theorem end_of_input_drops_what_is_queued {settings : Settings} {link : Link Receiver}
    {begun ended : Host} (hstart : Host.start settings link = .ok begun)
    (hended : begun.Unfolds log ended) (hclosed : ended.isInputClosed = true)
    (hgoing : ended.Unfolds more h) (hrunning : h.stage = .running) :
    log.filterMap Incident.entrant? =
        (log ++ more).filterMap Incident.taken? ++ h.site.inbox.items ∧
    -- the order to stop, and what follows it
    h.stageStep? = some { h with site := h.site.orderStop, stage := .stopping } ∧
    (∀ later g, Unfolds { h with site := h.site.orderStop, stage := .stopping } later g →
      (∀ i ∈ later, i.isRousing = false) ∧ g.site.inbox.items = h.site.inbox.items ∧
      (more ++ later).filterMap Incident.entrant? = [] ∧
      (g.result?.isSome = true →
        commandsSent (log ++ more ++ later) = commandsOf (log ++ more))) ∧
    -- the operations of the program are steps of this kind
    ∀ last u u', begun.Unfolds last u → u.Operation u' →
      ∃ further, begun.Unfolds (last ++ further) u' := by
  have hinOrder := (hended.trans hgoing).isInOrder (isInOrder_of_start hstart)
  obtain ⟨hclosed', hnone⟩ := hgoing.isInputClosed hclosed
  have hstage : h.stageStep? = some { h with site := h.site.orderStop, stage := .stopping } := by
    simp [stageStep?, hrunning, hclosed']
  have hentries : log.filterMap Incident.entrant? =
      (log ++ more).filterMap Incident.taken? ++ h.site.inbox.items := by
    rw [← hinOrder.accounts.entries, List.filterMap_append, hnone, List.append_nil]
  refine ⟨hentries, hstage, fun later g hlater => ?_, fun last u u' hlast hoperation => ?_⟩
  · have hordered : h.site.orderStop.isStopping = true := Site.isStopping_wake _ _
    obtain ⟨-, hunroused⟩ := hlater.unroused hordered
    have hwhole := (Happens.stage hstage).unfolds.trans hlater
    obtain ⟨-, hnone'⟩ := hwhole.isInputClosed hclosed'
    rw [List.nil_append] at hnone'
    have hinOrder' := ((hended.trans hgoing).trans hwhole).isInOrder (isInOrder_of_start hstart)
    rw [List.nil_append] at hinOrder'
    have htaken := Incident.filterMap_of_unroused Incident.taken?_of_unroused hunroused
    refine ⟨hunroused, ?_, ?_, fun hresult => ?_⟩
    · -- neither what has entered nor what has been taken has changed
      have hentries' := hinOrder'.accounts.entries
      generalize log ++ more = before at hinOrder hentries'
      rw [List.filterMap_append, List.filterMap_append, hnone', htaken, List.append_nil,
        List.append_nil, hinOrder.accounts.entries] at hentries'
      exact (List.append_cancel_left hentries').symm
    · rw [List.filterMap_append, hnone, hnone', List.append_nil]
    · rw [hinOrder'.commandsSent_eq hresult, commandsOf_append_of_unroused hunroused]
  · obtain ⟨further, hfurther⟩ := exists_unfolds_operation hoperation
    exact ⟨further, hlast.trans hfurther⟩

/-- Lets bytes arrive, settles the host, and lets the input end then. -/
def feedAll (h : Host) (input : Bytes) (steps : Nat) : Host :=
  (World.settle steps (h.mapLink fun l => l.arrive input)).mapLink fun l => l.endInput

lemma exists_unfolds_feedAll (h : Host) (input : Bytes) (steps : Nat) :
    ∃ more, h.Unfolds more (h.feedAll input steps) := by
  obtain ⟨log₁, hfed⟩ := exists_unfolds_operation
    (Operation.mapLink (h := h) (fun l => l.arrive input) fun l => ⟨rfl, rfl⟩)
  obtain ⟨log₂, hsettled⟩ := exists_unfolds_settle steps (h.mapLink fun l => l.arrive input)
  obtain ⟨log₃, hended⟩ := exists_unfolds_operation (Operation.mapLink
    (h := World.settle steps (h.mapLink fun l => l.arrive input)) (fun l => l.endInput)
    fun l => ⟨rfl, rfl⟩)
  exact ⟨_, (hfed.trans hsettled).trans hended⟩

/-- With stock settings a host starts on a new link, whatever becomes of its output. -/
lemma exists_start_stock (writes : Nat) :
    ∃ begun, Host.start .stock { brokenWrites := writes } = .ok begun := by
  have hregistry : Settings.stock.topics.registry = .ok .stock := rfl
  have hunstarted : ({ brokenWrites := writes } : Link Receiver).reader = .unstarted := rfl
  obtain ⟨site, tap, hstart, -⟩ := exists_start_on Registry.defect?_stock hregistry hunstarted
  exact ⟨_, hstart⟩

/-- With stock settings, when the second of two events is in the queue while the worker pauses,
because the output has refused its first command. -/
theorem end_of_input_drops_what_is_queued_amid_pause :
    let input :=
      Utf8.encode "rhasspy/wake-word/detected\nrhasspy/voice-command/command-stopped\n"
    ∃ begun log ended later g, Host.start .stock { brokenWrites := 1 } = .ok begun ∧
      ended = World.settle 1 (begun.feedAll input 40) ∧ begun.Unfolds log ended ∧
      ended.isInputClosed = true ∧ ended.stage = .running ∧
      log.filterMap Incident.entrant? = log.filterMap Incident.taken? ++ [⟨.commandStopped, []⟩] ∧
      Unfolds { ended with site := ended.site.orderStop, stage := .stopping } later g ∧
      g.result?.isSome = true ∧ g.site.inbox.items = [⟨.commandStopped, []⟩] ∧
      commandsSent (log ++ later) = commandsOf log := by
  intro input
  generalize hinput : input = bytes
  obtain ⟨begun, hstart⟩ := exists_start_stock 1
  obtain ⟨log₁, hfed⟩ := exists_unfolds_feedAll begun bytes 40
  obtain ⟨log₂, hseen⟩ := exists_unfolds_settle 1 (begun.feedAll bytes 40)
  have hunfolds := hfed.trans hseen
  have hrun : ((Host.start .stock { brokenWrites := 1 }).toOption.any fun begun =>
      let ended := World.settle 1 (begun.feedAll bytes 40)
      let g := World.advance 1000 40
        { ended with site := ended.site.orderStop, stage := .stopping }
      (match ended.stage with | .running => true | _ => false) && ended.isInputClosed &&
        ended.site.inbox.items = [⟨.commandStopped, []⟩] && g.result?.isSome) = true := by
    rw [← hinput]
    decide +kernel
  rw [hstart] at hrun
  simp only [Except.toOption, Option.any_some, Bool.and_eq_true, decide_eq_true_eq] at hrun
  generalize hended : World.settle 1 (begun.feedAll bytes 40) = ended at hunfolds hrun
  obtain ⟨⟨⟨hstage, hclosed⟩, hitems⟩, hresult⟩ := hrun
  have hrunning : ended.stage = .running := by
    cases hnow : ended.stage with
    | running => rfl
    | stopping | flushing | finished => simp [hnow] at hstage
  obtain ⟨later, hlater⟩ := exists_unfolds_advance 1000 40
    { ended with site := ended.site.orderStop, stage := .stopping }
  obtain ⟨hentries, -, hafter, -⟩ :=
    end_of_input_drops_what_is_queued hstart hunfolds hclosed .start hrunning
  obtain ⟨-, hdropped, -, hsent⟩ := hafter later _ hlater
  have hsent' := hsent hresult
  rw [List.append_nil] at hentries hsent'
  rw [hitems] at hentries
  exact ⟨begun, _, ended, later, _, hstart, hended.symm, hunfolds, hclosed, hrunning, hentries,
    hlater, hresult, hdropped.trans hitems, hsent'⟩

/-- Not everything that has entered the queue is handled before a host returns: with stock settings,
when the output refuses the first command, the second of two events is dropped, and only the
commands of the first one are written. -/
theorem end_of_input_drops_an_accepted_event :
    let input :=
      Utf8.encode "rhasspy/wake-word/detected\nrhasspy/voice-command/command-stopped\n"
    ∃ begun log returned, Host.start .stock { brokenWrites := 1 } = .ok begun ∧
      returned = World.advance 1000 40 (begun.feedAll input 40) ∧ begun.Unfolds log returned ∧
      returned.isToldToStop = false ∧ returned.isInputClosed = true ∧
      returned.result?.isSome = true ∧
      log.filterMap Incident.entrant? = log.filterMap Incident.taken? ++ [⟨.commandStopped, []⟩] ∧
      returned.link?.map Link.output = some (Utf8.encode ("rhasspy/wake-word/stop-listening\n" ++
        "rhasspy/voice-command/start-listening\n" ++
        "rhasspy/speech-to-text/start-listening\n")) := by
  intro input
  generalize hinput : input = bytes
  obtain ⟨begun, hstart⟩ := exists_start_stock 1
  obtain ⟨log₁, hfed⟩ := exists_unfolds_feedAll begun bytes 40
  obtain ⟨log₂, hreturned⟩ := exists_unfolds_advance 1000 40 (begun.feedAll bytes 40)
  have hunfolds := hfed.trans hreturned
  have hrun : ((Host.start .stock { brokenWrites := 1 }).toOption.any fun begun =>
      let returned := World.advance 1000 40 (begun.feedAll bytes 40)
      !returned.isToldToStop && returned.isInputClosed && returned.result?.isSome &&
        returned.site.inbox.items = [⟨.commandStopped, []⟩] &&
        returned.link?.map Link.output = some (Utf8.encode
          ("rhasspy/wake-word/stop-listening\n" ++ "rhasspy/voice-command/start-listening\n" ++
            "rhasspy/speech-to-text/start-listening\n"))) = true := by
    rw [← hinput]
    decide +kernel
  rw [hstart] at hrun
  simp only [Except.toOption, Option.any_some, Bool.and_eq_true, decide_eq_true_eq,
    Bool.not_eq_true'] at hrun
  obtain ⟨⟨⟨⟨huntold, hclosed⟩, hresult⟩, hitems⟩, houtput⟩ := hrun
  -- what is still in the queue has entered and has not been taken
  have hentries := (hunfolds.isInOrder (isInOrder_of_start hstart)).accounts.entries
  rw [hitems] at hentries
  exact ⟨begun, _, _, hstart, rfl, hunfolds, huntold, hclosed, hresult, hentries, houtput⟩

end Host

end Conductor

end VoiceTurn
