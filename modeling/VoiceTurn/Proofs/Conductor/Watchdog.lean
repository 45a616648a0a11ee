import VoiceTurn.Proofs.Conductor.Deadline

/-!
# The watchdog

A session that makes no progress is abandoned when its deadline has come and the worker finds
nothing else to do. Nothing but that is announced as a stall (`Site.Happens.exists_stalls`), and the
commands that compensate the session are dealt with before the worker turns to anything else
(`Site.Stalls.sent_append`).
-/

namespace VoiceTurn.Conductor

open Bus (Access)
open Topic (Registry)

namespace Worker

variable (w : Worker)

lemma stalled_not_mem_proceed (commands : List (Command × String)) (ending : Option Phase)
    (turn : Nat) (phase : Phase) (idle : Nat) :
    .sessionStalled turn phase idle ∉ (w.proceed commands ending).2 := by
  rcases w.proceed_cases commands ending with
    ⟨_, _, -, heq⟩ | ⟨-, -, heq⟩ | ⟨ended, s, -, -, -, heq⟩ <;> rw [heq]
  · exact List.not_mem_nil
  · exact List.not_mem_nil
  · intro hmem
    unfold closing at hmem
    split_ifs at hmem <;> simp at hmem

/-- Only an outcome that is `stalled` is announced as a stall. -/
lemma eq_stalled_of_mem_react {o : Outcome} {machine : Machine} {turn : Nat} {phase : Phase}
    {idle : Nat} (hmem : .sessionStalled turn phase idle ∈ (w.react o machine).2) :
    ∃ commands, o = .stalled turn phase idle commands := by
  rw [react_eq] at hmem
  have hadopt := (List.mem_append.1 hmem).resolve_right (stalled_not_mem_proceed _ _ _ _ _ _)
  -- a change of the phase is not a stall either
  have hshown (before after : Phase) : .sessionStalled turn phase idle ∉
      if before = after then [] else [Notice.phaseChanged before after] := by
    split_ifs <;> simp
  have hopening : .sessionStalled turn phase idle ∈ opening o := by
    cases o with
    | discarded => exact (List.mem_append.1 hadopt).resolve_right List.not_mem_nil
    | advanced | interrupted | stalled =>
      exact (List.mem_append.1 hadopt).resolve_right (hshown _ _)
  unfold opening at hopening
  cases o with
  | advanced => simp only at hopening; split_ifs at hopening <;> simp at hopening
  | discarded | interrupted => simp at hopening
  | stalled turn' phase' idle' commands =>
    simp only [List.mem_singleton, Notice.sessionStalled.injEq] at hopening
    obtain ⟨rfl, rfl, rfl⟩ := hopening
    exact ⟨commands, rfl⟩

lemma stalled_not_mem_sent {w : Worker} {c : Command} {topic : String}
    {rest : List (Command × String)} {ending : Option Phase}
    (hjob : w.job = .sending (c, topic) rest ending) (result : Except Bus.Failure Unit)
    (turn : Nat) (phase : Phase) (idle : Nat) :
    .sessionStalled turn phase idle ∉ (w.sent result).2 := by
  rw [sent_eq result hjob]
  intro hmem
  rcases List.mem_cons.1 hmem with heq | hmem
  · cases result <;> cases heq
  · exact stalled_not_mem_proceed _ _ _ _ _ _ hmem

end Worker

namespace Incident

def isRousing : Incident → Bool
  | roused .. => true
  | _ => false

/-- The command of a `sent`, with its topic. -/
def sent? : Incident → Option (Command × String)
  | sent _ c topic _ => some (c, topic)
  | _ => none

def notice? : Incident → Option Notice
  | noted n => some n
  | _ => none

lemma filterMap_notice?_map_noted (notices : List Notice) :
    (notices.map noted).filterMap notice? = notices := by
  rw [List.filterMap_map]
  exact List.filterMap_some

end Incident

namespace Site

variable {s s' : Site} {log more : List Incident}

/-! ## Commands that are at hand -/

/-- As long as the worker turns to nothing else, it sends what is `pending`. -/
lemma Works.sent_append (h : s.Works more s') (hmore : ∀ i ∈ more, i.isRousing = false) :
    more.filterMap Incident.sent? ++ s'.worker.pending = s.worker.pending := by
  -- however it went, the command that was at hand is the one that has been dealt with
  have hsent {c : Command} {topic : String} {rest : List (Command × String)}
      {ending : Option Phase} (hjob : s.worker.job = .sending (c, topic) rest ending)
      (result : Except Bus.Failure Unit) :
      (Incident.sent s.now c topic result :: (s.worker.sent result).2.map .noted).filterMap
        Incident.sent? ++ (s.worker.sent result).1.pending = s.worker.pending := by
    have hpending : (s.worker.sent result).1.pending = rest := (Worker.sent_spec hjob result).2.1
    have hnone := Incident.filterMap_map_noted (f := Incident.sent?) (fun _ => rfl)
      (s.worker.sent result).2
    rw [hpending, Worker.pending, hjob]
    simp [Incident.sent?, hnone]
  cases h with
  | stop hjob => exact (Worker.pending_of_waiting hjob).symm
  | handle | expire => cases hmore _ List.mem_cons_self
  | send left hjob =>
    rw [List.filterMap_append, Inbox.filterMap_incidentsOf fun _ _ _ => rfl]
    exact hsent hjob (.ok ())
  | pause => rfl
  | giveUp left hjob => exact hsent hjob (.error _)

lemma Happens.sent_append (h : s.Happens more s') (hmore : ∀ i ∈ more, i.isRousing = false) :
    more.filterMap Incident.sent? ++ s'.worker.pending = s.worker.pending := by
  rcases h.works_or_idle with hworks | ⟨hworker, -, harrivals⟩
  · exact hworks.sent_append hmore
  · have hnone : more.filterMap Incident.sent? = [] :=
      Incident.filterMap_of_isArrival (fun _ _ _ => rfl) (fun _ => rfl) harrivals
    rw [hnone, hworker, List.nil_append]

lemma Reaches.sent_append (h : s.Reaches more s') (hmore : ∀ i ∈ more, i.isRousing = false) :
    more.filterMap Incident.sent? ++ s'.worker.pending = s.worker.pending := by
  induction h with
  | start => rfl
  | next hreaches hhappens ih =>
    have hbefore := ih fun i hi => hmore i (List.mem_append_left _ hi)
    have hafter := hhappens.sent_append fun i hi => hmore i (List.mem_append_right _ hi)
    rw [List.filterMap_append, List.append_assoc, hafter, hbefore]

/-! ## What is announced -/

lemma Works.feed (h : s.Works more s') :
    s'.feed = s.feed.pushAll (more.filterMap Incident.notice?) := by
  have htold (i : Incident) (hi : i.notice? = none) (notices : List Notice) :
      (i :: notices.map .noted).filterMap Incident.notice? = notices := by
    rw [List.filterMap_cons_none hi, Incident.filterMap_notice?_map_noted]
  cases h with
  | stop | pause => rfl
  | handle | expire | giveUp =>
    rw [htold _ rfl]
    rfl
  | @send c topic rest ending ds carrier left hjob =>
    have hfeed := (delivered_deliverAll { s with
      access := { s.access with carrier }, pausedUntil := none, left } ds).feed
    rw [List.filterMap_append, Inbox.filterMap_incidentsOf fun _ _ _ => rfl, htold _ rfl]
    exact congrArg (fun feed => feed.pushAll (s.worker.sent (.ok ())).2) hfeed

/-- What is written down as a notice is what the `feed` gets. -/
lemma Happens.feed (h : s.Happens more s') :
    s'.feed = s.feed.pushAll (more.filterMap Incident.notice?) := by
  rcases h.works_or_idle with hworks | ⟨-, hfeed, harrivals⟩
  · exact hworks.feed
  · have hnone : more.filterMap Incident.notice? = [] :=
      Incident.filterMap_of_isArrival (fun _ _ _ => rfl) (fun _ => rfl) harrivals
    rw [hnone]
    exact hfeed

/-- A session that stalls: the worker waits with an empty queue, the deadline has come, and its
`Phase.compensation` is at hand. -/
structure Stalls (s : Site) (σ : Session) (s' : Site) : Prop where
  waiting : s.worker.job = .waiting
  empty : s.inbox.items = []
  session : s.worker.machine.session = some σ
  due : σ.progress + s.worker.machine.patience ≤ s.now
  pending : s'.worker.pending = s.worker.addressed σ.phase.compensation

lemma Works.exists_stalls (h : s.Works more s') {turn : Nat} {phase : Phase} {idle : Nat}
    (hmem : .noted (.sessionStalled turn phase idle) ∈ more) :
    ∃ σ, s.Stalls σ s' ∧ σ.turn = turn ∧ σ.phase = phase ∧ s.now - σ.progress = idle := by
  have hnotice {i : Incident} (hi : i.notice? = none) {notices : List Notice}
      (hmem : .noted (.sessionStalled turn phase idle) ∈ i :: notices.map .noted) :
      .sessionStalled turn phase idle ∈ notices := by
    rcases Incident.eq_or_noted_of_mem hmem with rfl | ⟨n, hn, heq⟩
    · cases hi
    · cases heq
      exact hn
  cases h with
  | stop | pause => cases hmem
  | @handle e inbox =>
    have hreact : .sessionStalled turn phase idle ∈ (s.worker.react
        (s.worker.machine.handle e s.now).1 (s.worker.machine.handle e s.now).2).2 :=
      hnotice rfl hmem
    obtain ⟨commands, heq⟩ := Worker.eq_stalled_of_mem_react _ hreact
    -- an event is accepted or discarded
    rcases s.worker.machine.handle_cases e s.now with
      ⟨-, hcase⟩ | ⟨σ, -, hcase⟩ | ⟨-, -, reason, hcase⟩ <;> rw [hcase] at heq <;> cases heq
  | @expire o machine hjob hgoing hitems hexpire =>
    obtain ⟨commands, rfl⟩ := Worker.eq_stalled_of_mem_react _ (hnotice rfl hmem)
    rcases s.worker.machine.expire_cases s.now with ⟨σ, hσ, hdue, heq⟩ | ⟨-, heq⟩ <;>
      rw [heq] at hexpire <;> cases hexpire
    refine ⟨σ, ⟨hjob, hitems, hσ, hdue, ?_⟩, rfl, rfl, rfl⟩
    show (s.worker.react (.stalled σ.turn σ.phase (s.now - σ.progress) σ.phase.compensation)
      s.worker.machine.clear).1.pending = _
    rw [Worker.react_eq, Worker.pending_proceed]
    rfl
  | send left hjob =>
    rcases List.mem_append.1 hmem with hmem | hmem
    · obtain ⟨m, e, free, heq⟩ := Inbox.exists_of_mem_incidentsOf hmem
      cases heq
    · exact absurd (hnotice rfl hmem) (Worker.stalled_not_mem_sent hjob _ _ _ _)
  | giveUp left hjob =>
    exact absurd (hnotice rfl hmem) (Worker.stalled_not_mem_sent hjob _ _ _ _)

/-- Where `sessionStalled` is noted, a session stalls. -/
lemma Happens.exists_stalls (h : s.Happens more s') {turn : Nat} {phase : Phase} {idle : Nat}
    (hmem : .noted (.sessionStalled turn phase idle) ∈ more) :
    ∃ σ, s.Stalls σ s' ∧ σ.turn = turn ∧ σ.phase = phase ∧ s.now - σ.progress = idle := by
  rcases h.works_or_idle with hworks | ⟨-, -, harrivals⟩
  · exact hworks.exists_stalls hmem
  · cases harrivals _ hmem

/-- The `Phase.compensation` of a session that has stalled is sent before anything else. -/
lemma Stalls.sent_append {σ : Session} (h : s.Stalls σ s') {s'' : Site}
    (hreaches : s'.Reaches more s'') (hmore : ∀ i ∈ more, i.isRousing = false) :
    (more.filterMap Incident.sent? ++ s''.worker.pending).map Prod.fst = σ.phase.compensation := by
  rw [hreaches.sent_append hmore, h.pending]
  exact s.worker.map_fst_addressed fun c hc => Phase.hasSlot_of_mem_compensation hc

/-! ## Events and the deadline -/

lemma Works.machine_of_discarded (h : s.Works more s') {now : Nat} {e? : Option Event}
    {phase : Phase} {cue : Cue} {reason : Discard}
    (hmem : .roused now e? (.discarded phase cue reason) ∈ more) :
    s'.worker.machine = s.worker.machine := by
  have hhead {i : Incident} {notices : List Notice}
      (hmem : .roused now e? (.discarded phase cue reason) ∈ i :: notices.map .noted) :
      i = .roused now e? (.discarded phase cue reason) := by
    rcases Incident.eq_or_noted_of_mem hmem with heq | ⟨n, -, heq⟩
    · exact heq.symm
    · cases heq
  cases h with
  | stop | pause => cases hmem
  | @handle e inbox =>
    obtain ⟨-, -, hdiscarded⟩ := Incident.roused.inj (hhead hmem)
    rcases s.worker.machine.handle_cases e s.now with
      ⟨-, hcase⟩ | ⟨σ, -, hcase⟩ | ⟨-, -, reason', hcase⟩
    · rw [hcase] at hdiscarded
      cases hdiscarded
    · rw [hcase] at hdiscarded
      cases hdiscarded
    · show (s.worker.handle e s.now).1.machine = _
      rw [Worker.handle_eq_react, hcase]
      rfl
  | expire hjob hgoing hitems hexpire =>
    obtain ⟨-, -, hdiscarded⟩ := Incident.roused.inj (hhead hmem)
    rcases s.worker.machine.expire_cases s.now with ⟨σ, -, -, heq⟩ | ⟨-, heq⟩ <;>
      rw [heq] at hexpire <;> cases hexpire
    cases hdiscarded
  | send left hjob =>
    rcases List.mem_append.1 hmem with hmem | hmem
    · obtain ⟨m, e, free, heq⟩ := Inbox.exists_of_mem_incidentsOf hmem
      cases heq
    · cases hhead hmem
  | giveUp => cases hhead hmem

lemma Happens.machine_of_discarded (h : s.Happens more s') {now : Nat} {e? : Option Event}
    {phase : Phase} {cue : Cue} {reason : Discard}
    (hmem : .roused now e? (.discarded phase cue reason) ∈ more) :
    s'.worker.machine = s.worker.machine := by
  rcases h.works_or_idle with hworks | ⟨-, -, harrivals⟩
  · exact hworks.machine_of_discarded hmem
  · cases harrivals _ hmem

/-- With an event in the queue, `workStep?` handles it, whether the deadline has come or not. -/
lemma exists_happens_handle (hjob : s.worker.job = .waiting) (hgoing : s.isStopping = false)
    {e : Event} {items : List Event} (hitems : s.inbox.items = e :: items) :
    ∃ s', s.workStep? = some s' ∧ s'.worker = (s.worker.handle e s.now).1 ∧
      s.Happens (.roused s.now (some e) (s.worker.machine.handle e s.now).1 ::
        (s.worker.handle e s.now).2.map .noted) s' := by
  obtain ⟨inbox, htake⟩ : ∃ inbox, s.inbox.take? = some (e, inbox) := by
    unfold Inbox.take?
    rw [hitems]
    cases s.inbox.waiting <;> exact ⟨_, rfl⟩
  have hstep : s.workStep? =
      some ({ s with inbox }.spend.took (s.worker.handle e s.now)) := by
    simp [workStep?, lookStep?, hjob, hgoing, htake]
  exact ⟨_, hstep, rfl, .work hstep (.handle hjob hgoing htake)⟩

/-- With an empty queue and a deadline that has come, the session is abandoned. -/
lemma exists_happens_stall (hjob : s.worker.job = .waiting) (hgoing : s.isStopping = false)
    (hitems : s.inbox.items = []) {σ : Session} (hσ : s.worker.machine.session = some σ)
    (hdue : σ.progress + s.worker.machine.patience ≤ s.now) :
    ∃ more s', s.Happens more s' ∧
      .noted (.sessionStalled σ.turn σ.phase (s.now - σ.progress)) ∈ more := by
  generalize hstalled : Outcome.stalled σ.turn σ.phase (s.now - σ.progress)
    σ.phase.compensation = o
  have hexpire : s.worker.machine.expire s.now = some (o, s.worker.machine.clear) := by
    rcases s.worker.machine.expire_cases s.now with ⟨σ', hσ', -, heq⟩ | ⟨hahead, -⟩
    · cases hσ.symm.trans hσ'
      rw [heq, hstalled]
    · have hlt := hahead σ hσ
      omega
  have hstep : s.workStep? =
      some (s.spend.took (s.worker.react o s.worker.machine.clear)) := by
    simp [workStep?, lookStep?, hjob, hgoing, Inbox.take?, hitems, Worker.expire?, hexpire]
  refine ⟨_, _, .work hstep (.expire hjob hgoing hitems hexpire), ?_⟩
  refine List.mem_cons_of_mem _ (List.mem_map_of_mem ?_)
  rw [← hstalled]
  simp [Worker.react, Worker.opening]

/-! ## The result -/

/-- Wherever a site can be: at rest, the deadline, counted from `lastAccepted`, lies ahead. A
session is announced as stalled only at its deadline or, if `lastBusy` is beyond it, right then, and
its `Phase.compensation` is sent next. An event in the queue comes before the deadline. -/
theorem session_stalls_at_deadline {access access' : Access Receiver} {taps : List Tap}
    {retry : Bus.Retry} {r : Registry} {settings : Settings} {begun : Site}
    (hstart : start access taps retry r settings = (.ok begun, access'))
    (hreaches : begun.Reaches log s) :
    let patience := settings.turn.stallTimeout.toNat
    -- at rest
    (s.step? = none → s.nextRound? = none → s.worker.job = .waiting → s.inbox.items = [] ∧
      ∀ σ, s.worker.machine.session = some σ →
        ∃ a, lastAccepted log = some a ∧ s.now < a + patience) ∧
    -- at the deadline, and in whatever follows
    (∀ more s' turn phase idle, s.Happens more s' →
      .noted (.sessionStalled turn phase idle) ∈ more →
      s.worker.job = .waiting ∧ s.inbox.items = [] ∧
      ∃ a, s.worker.machine.session = some ⟨turn, phase, a⟩ ∧ lastAccepted log = some a ∧
        idle = s.now - a ∧ patience ≤ idle ∧
        (idle = patience ∨ a + patience < lastBusy log ∧ s.now = lastBusy log) ∧
        ∀ later s'', s'.Reaches later s'' → (∀ i ∈ later, i.isRousing = false) →
          (later.filterMap Incident.sent? ++ s''.worker.pending).map Prod.fst =
            phase.compensation) ∧
    -- discarded events leave the deadline where it is
    (∀ more s' now e? phase cue reason, s.Happens more s' →
      .roused now e? (.discarded phase cue reason) ∈ more →
      s'.worker.machine.deadline? = s.worker.machine.deadline?) ∧
    -- a look at the queue comes before a look at the clock
    (∀ e items, s.worker.job = .waiting → s.isStopping = false → s.inbox.items = e :: items →
      ∃ more s', s.workStep? = some s' ∧
        s.Happens (.roused s.now (some e) (s.worker.machine.handle e s.now).1 :: more) s' ∧
        (e.cue ∈ s.worker.machine.phase.awaited →
          s'.worker.machine = s.worker.machine.accept s.now ∧
          (s.worker.machine.handle e s.now).1.isAccepted = true)) ∧
    (∀ more s', s.Happens more s' → s'.feed = s.feed.pushAll (more.filterMap Incident.notice?)) ∧
    ∀ s', s.Operation s' → ∃ more, begun.Reaches (log ++ more) s' := by
  intro patience
  have hisStart := isStart_of_start hstart
  have hwatches := hreaches.induction (P := fun log s => s.Watches patience log) hisStart.watches
    fun hwatches hhappens => hwatches.happens hhappens
  have halert : s.IsAlert := hreaches.isAlert hisStart.isAlert
  refine ⟨fun hstep hround hjob => ?_, fun more s' turn phase idle hhappens hmem => ?_,
    fun more s' now e? phase cue reason hhappens hmem => ?_,
    fun e items hjob hgoing hitems => ?_, fun more s' hhappens => hhappens.feed,
    fun s' hoperation => ?_⟩
  · have hnone := halert.workStep?_eq_none hstep hround
    obtain ⟨-, hitems, hexpire⟩ := (workStep?_eq_none_iff.1 hnone).1 hjob
    refine ⟨hitems, fun σ hσ => ⟨σ.progress, hwatches.accepted σ hσ, ?_⟩⟩
    -- nothing is left to do, so the deadline has not come
    rcases s.worker.machine.expire_cases s.now with ⟨σ', -, -, heq⟩ | ⟨hahead, -⟩
    · rw [heq] at hexpire
      cases hexpire
    · rw [← hwatches.patience]
      exact hahead σ hσ
  · obtain ⟨σ, hstalls, rfl, rfl, rfl⟩ := hhappens.exists_stalls hmem
    have hdue := hstalls.due
    rw [hwatches.patience] at hdue
    have honTime := hwatches.on_time hstalls.waiting hstalls.empty hstalls.session hdue
    refine ⟨hstalls.waiting, hstalls.empty, σ.progress, hstalls.session,
      hwatches.accepted σ hstalls.session, rfl, ?_, ?_, fun later s'' hlater hnone => ?_⟩
    · omega
    · omega
    · exact hstalls.sent_append hlater hnone
  · rw [hhappens.machine_of_discarded hmem]
  · obtain ⟨s', hstep, hworker, hhappens⟩ := exists_happens_handle hjob hgoing hitems
    refine ⟨_, s', hstep, hhappens, fun hawaited => ⟨?_, ?_⟩⟩
    · rw [hworker]
      exact Worker.machine_handle_of_awaited hawaited s.now
    · rw [Machine.handle_of_awaited _ _ hawaited]
      rfl
  · obtain ⟨more, hmore⟩ := exists_reaches_operation hoperation halert
    exact ⟨more, hreaches.trans hmore⟩

/-- With stock settings, half a minute after the wake word. -/
theorem session_stalls_at_deadline_after_wake_word :
    ∃ begun access' log s more s',
      start { carrier := .link {} } [] .never .stock .stock = (.ok begun, access') ∧
        begun.Reaches log s ∧ s.Happens more s' ∧
        .noted (.sessionStalled 1 .listening 30000) ∈ more ∧ lastAccepted log = some 0 ∧
        s'.worker.pending.map Prod.fst =
          [.stop .speechToText, .stop .voiceCommand, .start .wakeWord] := by
  obtain ⟨begun, access', hstart⟩ := exists_start Registry.defect?_stock .stock
  have halert : begun.IsAlert := (isStart_of_start hstart).isAlert
  -- the wake word is entered, and everything is done that can be done at once
  obtain ⟨log₁, hentered⟩ := exists_reaches_operation (.inject ⟨.wakeDetected, []⟩ 40) halert
  obtain ⟨log₂, hrested⟩ := exists_reaches_finishRound 40 (hentered.isAlert halert)
  have hrests : ((start { carrier := .link {} } [] .never .stock .stock).1.toOption.any fun begun =>
      let s := World.finishRound 40 (begun.inject ⟨.wakeDetected, []⟩ 40).2
      s.worker.pending.isEmpty && !s.worker.isStopped && !s.isStopping && s.inbox.items.isEmpty &&
        s.now = 0 && s.worker.machine.session = some ⟨1, .listening, 0⟩ &&
        s.worker.machine.patience = 30000) = true := by
    decide +kernel
  rw [hstart] at hrests
  simp only [Except.toOption, Option.any_some, Bool.and_eq_true, decide_eq_true_eq,
    List.isEmpty_iff, Bool.not_eq_true'] at hrests
  generalize World.finishRound 40 (begun.inject ⟨.wakeDetected, []⟩ 40).2 = rested at *
  obtain ⟨⟨⟨⟨⟨⟨hpending, hatWork⟩, hgoing⟩, hitems⟩, hnow⟩, hsession⟩, hpatience⟩ := hrests
  have hjob : rested.worker.job = .waiting := by
    unfold Worker.pending at hpending
    unfold Worker.isStopped at hatWork
    cases hjob : rested.worker.job with
    | waiting => rfl
    | sending | stopped => simp [hjob] at hpending hatWork
  -- the clock goes on to the deadline
  have hclock : rested.Happens [] (rested.setClock 30000) := by
    refine .clock 30000 (by omega) fun _ _ d hd => ?_
    rw [Machine.deadline?, hsession, hpatience] at hd
    cases hd
    exact Nat.le_max_left _ _
  have hreaches := hentered.trans (hrested.trans hclock.reaches)
  obtain ⟨ready, hready⟩ := wake_eq { rested with now := 30000 } .worker
  rw [setClock, hready] at hreaches
  have hdue : 0 + rested.worker.machine.patience ≤ 30000 := by omega
  obtain ⟨more, s', hhappens, hstalled⟩ :=
    exists_happens_stall (s := { rested with now := 30000, ready }) hjob hgoing hitems hsession hdue
  obtain ⟨-, hstalls, -⟩ := session_stalls_at_deadline hstart hreaches
  obtain ⟨-, -, a, ha, haccepted, -, -, -, hsent⟩ := hstalls _ _ _ _ _ hhappens hstalled
  cases hsession.symm.trans ha
  have hcommands := hsent [] _ .start fun i hi => absurd hi List.not_mem_nil
  rw [List.filterMap_nil, List.nil_append] at hcommands
  exact ⟨begun, access', _, _, more, s', hstart, hreaches, hhappens, hstalled, haccepted, hcommands⟩

end Site

end VoiceTurn.Conductor
