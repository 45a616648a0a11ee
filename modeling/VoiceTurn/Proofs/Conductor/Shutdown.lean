import VoiceTurn.Proofs.Conductor.Errands

/-!
# Shutdown

Whoever shuts a conductor down waits until its worker has stopped. The commands at hand are dealt
with before that and nothing else is turned to, and from then on the conductor is inert: whatever
comes to its site is refused or leaves no trace (`Site.shutdown_is_final`).
-/

namespace VoiceTurn.Conductor

open Bus (Access)
open Topic (Registry)

namespace Site

variable {s t : Site} {log more : List Incident} {r : Registry}

lemma Reaches.isLatched (h : s.Reaches more t) (hlatched : s.IsLatched) : t.IsLatched :=
  h.induction (P := fun _ t => t.IsLatched) hlatched fun hlatched hhappens =>
    hlatched.happens hhappens

/-- Once the worker has stopped, `unsubscribe` is among the things that can happen. -/
lemma reaches_unsubscribe (hclosed : t.inbox.isClosed = true) : t.Reaches [] t.unsubscribe.2 :=
  (Happens.bus _ _ (.inl hclosed)).reaches

/-! ## Refusals -/

lemma inject_of_isClosed (hclosed : s.inbox.isClosed = true) (e : Event) (steps : Nat) :
    s.inject e steps = (.error .alreadyStopped, s) := by
  unfold inject
  rw [Inbox.send_of_isClosed hclosed]

lemma shutdown_of_isStopping (hordered : s.isStopping = true) (steps : Nat) :
    s.shutdown steps = (.error .alreadyStopped, s) := if_pos hordered

/-- An `inject` whose wait ends in front of a closed inbox is refused. -/
lemma inject_of_waits {e : Event} {inbox : Inbox Event} (hsend : s.inbox.send e = (.waits, inbox))
    {steps : Nat}
    (hclosed : (World.await (fun t : Site => t.inbox.waiting.isEmpty) steps steps
      { s with inbox }).inbox.isClosed = true) :
    (s.inject e steps).1 = .error .alreadyStopped := by
  unfold inject
  rw [hsend]
  simp only [hclosed, if_true]

/-- An `inject` that has to wait after `orderStop` waits for a refusal. -/
lemma exists_inject_refused (hordered : s.isStopping = true) (halert : s.IsAlert)
    (hlatched : s.IsLatched) {e : Event} {inbox : Inbox Event}
    (hsend : s.inbox.send e = (.waits, inbox)) :
    ∃ enough, ∀ steps ≥ enough, (s.inject e steps).1 = .error .alreadyStopped := by
  have hline : s.Happens [] { s with inbox } := .lineUp hsend
  have halert' := hline.isAlert halert
  obtain ⟨enough, hends⟩ :=
    endsWait (s := { s with inbox }) (fun t : Site => t.inbox.waiting.isEmpty) hordered halert'
  refine ⟨enough, fun steps hsteps => inject_of_waits hsend ?_⟩
  obtain ⟨more, hmore⟩ :=
    exists_reaches_await (fun t : Site => t.inbox.waiting.isEmpty) steps steps halert'
  have hlingers := (hmore.windsDown hordered).lingers
  have hwaiting : inbox.waiting ≠ [] := by
    unfold Inbox.send at hsend
    split_ifs at hsend
    all_goals cases hsend
    exact List.append_ne_nil_of_right_ne_nil _ (List.cons_ne_nil _ _)
  rcases hends steps hsteps steps hsteps with hempty | hstopped
  · -- nobody leaves the line as long as the inbox is open
    refine Bool.eq_true_of_not_eq_false fun hopen => hwaiting ?_
    have hprefix := hlingers.waiting hopen
    rw [List.isEmpty_iff.1 hempty] at hprefix
    exact List.prefix_nil.1 hprefix
  · exact (hmore.isLatched (hlatched.happens hline)).closed.trans hstopped

/-! ## The result -/

/-- After `orderStop` the worker turns to nothing, sends what is `pending` and stops; `shutdown`
waits for that and then calls `unsubscribe`. From then on the site `Rests`: nothing comes of
anything that happens, and every `inject`, those that waited included, and every further `shutdown`
is refused. -/
theorem shutdown_is_final {access access' : Access Receiver} {taps : List Tap} {retry : Bus.Retry}
    {settings : Settings} {begun : Site}
    (hstart : start access taps retry r settings = (.ok begun, access'))
    (hreaches : begun.Reaches log s) (hrunning : s.isStopping = false) :
    -- the commands at hand are sent, and nothing is taken up any more
    (∀ more t, s.orderStop.Reaches more t →
      (∀ i ∈ more, i.isRousing = false) ∧
      more.filterMap Incident.sent? ++ t.worker.pending = s.worker.pending ∧
      (t.worker.isStopped = true → commandsSent (log ++ more) = commandsOf log) ∧
      t.inbox.isClosed = t.worker.isStopped ∧
      (t.inbox.isClosed = false → s.inbox.waiting <+: t.inbox.waiting) ∧
      (∀ e inbox, t.inbox.send e = (.waits, inbox) →
        ∃ enough, ∀ steps ≥ enough, (t.inject e steps).1 = .error .alreadyStopped) ∧
      ∀ steps, t.shutdown steps = (.error .alreadyStopped, t)) ∧
    -- the waiting ends, and what it goes through is a run of the site
    (∃ enough, ∀ steps ≥ enough, ∃ more t, s.orderStop.Reaches more t ∧
      t.worker.isStopped = true ∧ s.shutdown steps = t.unsubscribe) ∧
    -- once the worker has stopped
    ∀ more t, s.orderStop.Reaches more t → t.worker.isStopped = true →
      t.inbox.waiting = [] ∧ t.inbox.granted = [] ∧ t.Reaches [] t.unsubscribe.2 ∧
      ∀ later u, t.Reaches later u →
        later = [] ∧ t.Rests u ∧ u.workStep? = none ∧ u.isRunning = false ∧
        (∀ e steps, u.inject e steps = (.error .alreadyStopped, u)) ∧
        (∀ (w : Site) e inbox steps, w.inbox.send e = (.waits, inbox) →
          World.await (fun v : Site => v.inbox.waiting.isEmpty) steps steps { w with inbox } = u →
          (w.inject e steps).1 = .error .alreadyStopped) ∧
        (∀ steps, u.shutdown steps = (.error .alreadyStopped, u)) ∧
        ∀ u', u.Operation u' → t.Reaches [] u' := by
  have hisStart := isStart_of_start hstart
  have horder : s.Happens [] s.orderStop := .order
  have hordered : s.orderStop.isStopping = true := isStopping_wake _ _
  have halert : s.orderStop.IsAlert := horder.isAlert (hreaches.isAlert hisStart.isAlert)
  have hlatched : s.orderStop.IsLatched := (hreaches.isLatched hisStart.isLatched).happens horder
  have hkeepsUp : s.KeepsUp log := hreaches.induction (P := fun log s => s.KeepsUp log)
    hisStart.keepsUp fun hkeepsUp hhappens => hkeepsUp.happens hhappens
  have hworker : s.orderStop.worker = s.worker := worker_wake _ _
  have hinbox : s.orderStop.inbox = s.inbox := inbox_wake _ _
  refine ⟨fun more t hmore => ?_, ?_, fun more t hmore hstopped => ?_⟩
  · have hwindsDown := hmore.windsDown hordered
    have hlatched' := hmore.isLatched hlatched
    have hsent := hwindsDown.sent
    rw [hworker] at hsent
    have hwaiting := hwindsDown.lingers.waiting
    rw [hinbox] at hwaiting
    refine ⟨hwindsDown.unroused, hsent, fun hstopped => ?_, hlatched'.closed, hwaiting,
      fun e inbox hsend => ?_, fun steps => shutdown_of_isStopping hwindsDown.isStopping steps⟩
    -- `KeepsUp` says that nothing was owed but what is pending, and that has been sent now
    · rw [Worker.pending_of_isStopped hstopped, List.append_nil] at hsent
      rw [← hkeepsUp, commandsSent, commandsSent, List.filterMap_append, List.map_append, hsent]
    · exact exists_inject_refused hwindsDown.isStopping (hmore.isAlert halert) hlatched' hsend
  · obtain ⟨enough, hends⟩ := endsWait (fun t : Site => t.worker.isStopped) hordered halert
    refine ⟨enough, fun steps hsteps => ?_⟩
    obtain ⟨more, hmore⟩ :=
      exists_reaches_await (fun t : Site => t.worker.isStopped) steps steps halert
    refine ⟨more, _, hmore, (hends steps hsteps steps hsteps).elim id id, ?_⟩
    rw [shutdown, hrunning]
    rfl
  · have hlatched' := hmore.isLatched hlatched
    have hclosed : t.inbox.isClosed = true := hlatched'.closed.trans hstopped
    obtain ⟨hwaiting, hgranted⟩ := hlatched'.deserted hclosed
    refine ⟨hwaiting, hgranted, reaches_unsubscribe hclosed, fun later u hlater => ?_⟩
    obtain ⟨rfl, hrests, hlatched''⟩ := hlater.rests hlatched' hstopped
    have hstopped' : u.worker.isStopped = true := by rw [hrests.worker, hstopped]
    have hclosed' : u.inbox.isClosed = true := by rw [hrests.inbox, hclosed]
    have hordered' := hlatched''.ordered hstopped'
    refine ⟨rfl, hrests, workStep?_of_isStopped hstopped', ?_,
      fun e steps => inject_of_isClosed hclosed' e steps,
      fun w e inbox steps hsend hawait => ?_,
      fun steps => shutdown_of_isStopping hordered' steps, fun u' hoperation => ?_⟩
    · rw [isRunning, hordered']
      rfl
    · refine inject_of_waits hsend ?_
      rw [hawait]
      exact hclosed'
    · obtain ⟨last, hlast⟩ := exists_reaches_operation hoperation
        (hlater.isAlert (hmore.isAlert halert))
      have hall := hlater.trans hlast
      obtain ⟨hnone, -⟩ := hall.rests hlatched' hstopped
      rwa [hnone] at hall

/-- With stock settings, when one of the three commands of the wake word has been sent. -/
theorem shutdown_is_final_amid_commands :
    let left : List Command := [.start .voiceCommand, .start .speechToText]
    ∃ begun access' log s enough,
      start { carrier := .link {} } [] .never .stock .stock = (.ok begun, access') ∧
        begun.Reaches log s ∧ s.isStopping = false ∧ s.worker.pending.map Prod.fst = left ∧
        ∀ steps ≥ enough, ∃ more t, s.orderStop.Reaches more t ∧
          s.shutdown steps = t.unsubscribe ∧ (more.filterMap Incident.sent?).map Prod.fst = left ∧
          ∀ later u, t.Reaches later u → later = [] ∧
            ∀ e steps, u.inject e steps = (.error .alreadyStopped, u) := by
  intro left
  obtain ⟨begun, access', hstart⟩ := exists_start Registry.defect?_stock .stock
  have halert : begun.IsAlert := (isStart_of_start hstart).isAlert
  -- the worker turns to the wake word and sends the first command
  obtain ⟨log₁, hentered⟩ := exists_reaches_operation (.inject ⟨.wakeDetected, []⟩ 0) halert
  obtain ⟨log₂, hsending⟩ := exists_reaches_finishRound 2 (hentered.isAlert halert)
  have hreaches := hentered.trans hsending
  have hatWork : ((start { carrier := .link {} } [] .never .stock .stock).1.toOption.any
      fun begun =>
        let s := World.finishRound 2 (begun.inject ⟨.wakeDetected, []⟩ 0).2
        !s.isStopping && s.worker.pending.map Prod.fst = left) = true := by
    decide +kernel
  rw [hstart] at hatWork
  simp only [Except.toOption, Option.any_some, Bool.and_eq_true, decide_eq_true_eq,
    Bool.not_eq_true'] at hatWork
  obtain ⟨hrunning, hpending⟩ := hatWork
  obtain ⟨hwindsDown, ⟨enough, hstops⟩, hinert⟩ := shutdown_is_final hstart hreaches hrunning
  refine ⟨begun, access', _, _, enough, hstart, hreaches, hrunning, hpending,
    fun steps hsteps => ?_⟩
  obtain ⟨more, t, hmore, hstopped, hshutdown⟩ := hstops steps hsteps
  obtain ⟨-, hsent, -⟩ := hwindsDown more t hmore
  obtain ⟨-, -, -, hlater⟩ := hinert more t hmore hstopped
  refine ⟨more, t, hmore, hshutdown, ?_, fun later u hreaches => ?_⟩
  · rw [← hpending, ← hsent, Worker.pending_of_isStopped hstopped, List.append_nil]
  · obtain ⟨hnone, -, -, -, hrefused, -⟩ := hlater later u hreaches
    exact ⟨hnone, hrefused⟩

end Site

end VoiceTurn.Conductor
