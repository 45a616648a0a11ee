import VoiceTurn.Conductor.Worker
import VoiceTurn.Proofs.Turn.Run

/-!
# What the worker does

One lemma for each function of the worker, so that nothing later has to open them:
`Worker.react_eq` and `Worker.proceed_cases` for what follows an outcome of the machine, and
`Worker.sent_eq` for what follows an attempt to send a command. What a worker has begun but not
finished is read off its job by `Worker.pending`, the commands that are left, and by
`Worker.settled`, the machine as it will be once they are sent.
-/

namespace VoiceTurn.Conductor

/-- The phase in which an `advanced` turn ends, if it does. -/
def ending? : Outcome → Option Phase
  | .advanced _ _ _ after _ true => some after
  | _ => none

lemma isSome_ending? (o : Outcome) : (ending? o).isSome = (Reply.outcome o).endsTurn := by
  cases o with
  | advanced turn cue before after commands ends => cases ends <;> rfl
  | discarded | interrupted | stalled => rfl

def report (c : Command) (topic : String) (result : Except Bus.Failure Unit) : Notice :=
  match result with
  | .ok () => .commandIssued c topic
  | .error f => .publishFailed topic f

/-- Whether a notice is a `report`. -/
def Notice.isReport : Notice → Bool
  | .commandIssued .. | .publishFailed .. => true
  | _ => false

@[simp] lemma isReport_report (c : Command) (topic : String) (result : Except Bus.Failure Unit) :
    (report c topic result).isReport = true := by
  cases result <;> rfl

def closing (turn : Nat) (phase : Phase) : List Notice :=
  .turnCompleted turn :: if phase = .idle then [] else [.phaseChanged phase .idle]

namespace Worker

/-! ## Work that is not done -/

/-- The commands of `Job.sending`, with their topics. -/
def pending (w : Worker) : List (Command × String) :=
  match w.job with
  | .sending next rest _ => next :: rest
  | .waiting | .stopped => []

/-- The machine as it will be once the commands that are `pending` are sent. -/
def settled (w : Worker) : Machine :=
  match w.job with
  | .sending _ _ (some _) => w.machine.clear
  | .sending _ _ none | .waiting | .stopped => w.machine

variable (w : Worker)

lemma sending_or_pending_eq_nil :
    (∃ c topic rest ending, w.job = .sending (c, topic) rest ending) ∨ w.pending = [] := by
  cases hjob : w.job with
  | sending next rest ending => exact .inl ⟨next.1, next.2, rest, ending, rfl⟩
  | waiting | stopped => exact .inr (by simp only [pending, hjob])

lemma pending_of_waiting {w : Worker} (h : w.job = .waiting) : w.pending = [] := by
  rw [pending, h]

/-! ## What the worker does -/

/-- Takes over the machine after an outcome, with the notices about that. -/
def adopt (o : Outcome) (machine : Machine) : Worker × List Notice :=
  let w := { w with machine, tally := count w.tally o }
  let (w, shown) : Worker × List Notice := match o with
    | .advanced _ _ before after _ _ => w.display before after
    | .discarded .. => (w, [])
    | .interrupted _ phase _ _ => w.display phase machine.phase
    | .stalled _ phase _ _ => w.display phase .idle
  (w, opening o ++ shown)

/-- A `react` is an `adopt` and then a `proceed` with the commands. -/
lemma react_eq (o : Outcome) (machine : Machine) :
    w.react o machine =
      (((w.adopt o machine).1.proceed (w.addressed o.commands) (ending? o)).1,
        (w.adopt o machine).2 ++
          ((w.adopt o machine).1.proceed (w.addressed o.commands) (ending? o)).2) := by
  cases o <;> rfl

/-- The worker after `Machine.clear`, with the turn counted as completed. -/
def closed : Worker :=
  { w with machine := w.machine.clear, job := .waiting, shown := {},
           tally := { w.tally with completed := w.tally.completed + 1 } }

/-- A `finish` takes the session away; what is noted depends on whether there was one. -/
lemma finish_eq (phase : Phase) :
    w.finish phase =
      match w.machine.session with
      | none => ({ w with job := .waiting }, [])
      | some s => (w.closed, closing s.turn phase) := by
  rw [finish, Machine.complete_eq]
  cases w.machine.session <;> rfl

section
variable (commands : List (Command × String)) (ending : Option Phase)

/-- Everything that `proceed` can do: send the first command, wait, or end a turn. -/
lemma proceed_cases :
    (∃ c rest, commands = c :: rest ∧
      w.proceed commands ending = ({ w with job := .sending c rest ending }, [])) ∨
    (commands = [] ∧ (ending.isSome → w.machine.session = none) ∧
      w.proceed commands ending = ({ w with job := .waiting }, [])) ∨
    (∃ phase s, commands = [] ∧ ending = some phase ∧ w.machine.session = some s ∧
      w.proceed commands ending = (w.closed, closing s.turn phase)) := by
  cases commands with
  | cons c rest => exact .inl ⟨c, rest, rfl, rfl⟩
  | nil =>
    cases ending with
    | none => exact .inr (.inl ⟨rfl, nofun, rfl⟩)
    | some phase =>
      have hfinish : w.proceed [] (some phase) = w.finish phase := rfl
      rw [hfinish, finish_eq]
      cases hs : w.machine.session with
      | none => exact .inr (.inl ⟨rfl, fun _ => rfl, rfl⟩)
      | some s => exact .inr (.inr ⟨phase, s, rfl, rfl, rfl, rfl⟩)

/-- Whatever `proceed` does, the addresses of the worker and its count of failures stay, and it is
not stopped by it. -/
lemma proceed_keeps :
    (w.proceed commands ending).1.registry = w.registry ∧
      (w.proceed commands ending).1.qos = w.qos ∧
      (w.proceed commands ending).1.tally.publishFailures = w.tally.publishFailures ∧
      (w.proceed commands ending).1.isStopped = false := by
  rcases w.proceed_cases commands ending with ⟨_, _, -, h⟩ | ⟨-, -, h⟩ | ⟨_, _, -, -, -, h⟩
  · rw [h]
    exact ⟨rfl, rfl, rfl, rfl⟩
  · rw [h]
    exact ⟨rfl, rfl, rfl, rfl⟩
  · rw [h]
    exact ⟨rfl, rfl, rfl, rfl⟩

@[simp] lemma registry_proceed : (w.proceed commands ending).1.registry = w.registry :=
  (w.proceed_keeps commands ending).1

@[simp] lemma qos_proceed : (w.proceed commands ending).1.qos = w.qos :=
  (w.proceed_keeps commands ending).2.1

@[simp] lemma publishFailures_proceed :
    (w.proceed commands ending).1.tally.publishFailures = w.tally.publishFailures :=
  (w.proceed_keeps commands ending).2.2.1

@[simp] lemma isStopped_proceed : (w.proceed commands ending).1.isStopped = false :=
  (w.proceed_keeps commands ending).2.2.2

@[simp] lemma pending_proceed : (w.proceed commands ending).1.pending = commands := by
  rcases w.proceed_cases commands ending with ⟨_, _, hc, h⟩ | ⟨hc, -, h⟩ | ⟨_, _, hc, -, -, h⟩ <;>
    rw [h, hc] <;> rfl

/-- A `proceed` decides nothing: `settled` is the machine, or the machine after `clear` if the turn
was to end. -/
lemma settled_proceed :
    (w.proceed commands ending).1.settled =
      if ending.isSome then w.machine.clear else w.machine := by
  rcases w.proceed_cases commands ending with ⟨_, _, -, h⟩ | ⟨-, hs, h⟩ | ⟨_, _, -, he, -, h⟩
  · rw [h]
    cases ending <;> rfl
  · rw [h]
    split
    · -- there is nothing to complete, and clearing the machine changes nothing either
      exact (Machine.clear_of_no_session (hs ‹_›)).symm
    · rfl
  · rw [h, he]
    rfl

@[simp] lemma filter_isReport_proceed :
    (w.proceed commands ending).2.filter Notice.isReport = [] := by
  rcases w.proceed_cases commands ending with ⟨_, _, -, h⟩ | ⟨-, -, h⟩ | ⟨_, _, -, -, -, h⟩
  · rw [h]
    rfl
  · rw [h]
    rfl
  · rw [h, closing, List.filter_cons_of_neg (by simp [Notice.isReport])]
    split <;> rfl

end

section
variable (o : Outcome) (machine : Machine)

@[simp] lemma registry_adopt : (w.adopt o machine).1.registry = w.registry := by cases o <;> rfl

@[simp] lemma qos_adopt : (w.adopt o machine).1.qos = w.qos := by cases o <;> rfl

@[simp] lemma machine_adopt : (w.adopt o machine).1.machine = machine := by cases o <;> rfl

@[simp] lemma publishFailures_adopt :
    (w.adopt o machine).1.tally.publishFailures = w.tally.publishFailures := by
  cases o <;> rfl

lemma filter_isReport_opening : (opening o).filter Notice.isReport = [] := by
  cases o <;> simp only [opening] <;> try rfl
  split <;> rfl

lemma filter_isReport_display (before after : Phase) :
    (w.display before after).2.filter Notice.isReport = [] := by
  simp only [display]
  split <;> rfl

@[simp] lemma filter_isReport_adopt : (w.adopt o machine).2.filter Notice.isReport = [] := by
  have hopening := filter_isReport_opening o
  cases o with
  | discarded phase cue reason => rfl
  | advanced | interrupted | stalled =>
    rw [adopt, List.filter_append, hopening]
    exact filter_isReport_display ..

end

def noted (result : Except Bus.Failure Unit) : Worker :=
  match result with
  | .ok () => w
  | .error _ => { w with tally := { w.tally with publishFailures := w.tally.publishFailures + 1 } }

section
variable (result : Except Bus.Failure Unit)

@[simp] lemma registry_noted : (w.noted result).registry = w.registry := by cases result <;> rfl

@[simp] lemma qos_noted : (w.noted result).qos = w.qos := by cases result <;> rfl

@[simp] lemma machine_noted : (w.noted result).machine = w.machine := by cases result <;> rfl

lemma publishFailures_noted :
    (w.noted result).tally.publishFailures =
      w.tally.publishFailures + if (!result.isOk) then 1 else 0 := by
  cases result <;> rfl

/-- However an attempt went, it is reported, and the worker goes on with `proceed`. -/
lemma sent_eq {w : Worker} {c : Command} {topic : String} {rest : List (Command × String)}
    {ending : Option Phase} (h : w.job = .sending (c, topic) rest ending) :
    w.sent result =
      (((w.noted result).proceed rest ending).1,
        report c topic result :: ((w.noted result).proceed rest ending).2) := by
  unfold sent
  rw [h]
  cases result <;> rfl

end

/-! ## The worker but for failures -/

/-- The worker without its count of failures. -/
def blind : Worker := { w with tally := { w.tally with publishFailures := 0 } }

/-- The count of failures is no reason for `proceed` to do anything. -/
lemma proceed_blind (commands : List (Command × String)) (ending : Option Phase) :
    w.blind.proceed commands ending =
      ((w.proceed commands ending).1.blind, (w.proceed commands ending).2) := by
  cases commands with
  | cons c rest => rfl
  | nil =>
    cases ending with
    | none => rfl
    | some phase =>
      simp only [proceed, finish_eq, blind]
      cases w.machine.session <;> rfl

lemma react_blind (o : Outcome) (machine : Machine) :
    w.blind.react o machine = ((w.react o machine).1.blind, (w.react o machine).2) := by
  have hadopt : w.blind.adopt o machine =
      ((w.adopt o machine).1.blind, (w.adopt o machine).2) := by
    cases o <;> rfl
  rw [react_eq, react_eq, hadopt, proceed_blind]
  rfl

lemma blind_noted (result : Except Bus.Failure Unit) : (w.noted result).blind = w.blind := by
  cases result <;> rfl

end Worker

end VoiceTurn.Conductor
