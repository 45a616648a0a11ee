import Mathlib.Data.List.Forall2
import VoiceTurn.Proofs.Conductor.Shift

/-!
# The worker and its machine

Whatever the bus answers, a worker attempts to send exactly the commands of its machine. The machine
on its own is called once for every occasion and is told to complete a turn right after the outcome
that ends it (`Machine.schedule`). `Shift.Refines` relates a worker at any point of its shift to
such a machine: rousing the worker is one or two calls on the machine, and attempting to send a
command is none. That answers of the bus make no difference is a second simulation, between two
shifts that agree on all but what the bus has answered (`Shift.Agree`).
-/

namespace VoiceTurn

/-! ## The machine on its own -/

namespace Machine

open Conductor (Occasion)

/-- The calls for one occasion: the outcome that ends a turn is followed by `complete`. -/
def callsFor (m : Machine) (o : Occasion) : List Call :=
  if (m.call o.call).1.endsTurn then [o.call, .complete] else [o.call]

/-- The `callsFor` occasions one after the other. -/
def schedule (m : Machine) : List Occasion → List Call
  | [] => []
  | o :: os => m.callsFor o ++ (m.after (m.callsFor o)).schedule os

lemma after_callsFor (m : Machine) (o : Occasion) :
    m.after (m.callsFor o) =
      if (m.call o.call).1.endsTurn then (m.call o.call).2.clear else (m.call o.call).2 := by
  unfold callsFor
  split
  · rw [after_cons, after_cons, after_nil, call_complete_snd]
  · rfl

lemma commandLog_callsFor (m : Machine) (o : Occasion) :
    m.commandLog (m.callsFor o) = (m.call o.call).1.commands := by
  unfold callsFor
  split <;> simp [commands_call_complete]

end Machine

/-! ## Topics -/

/-- Whether `Slot.ofCommand?` has a slot for a command. -/
def Command.HasSlot (c : Command) : Prop := (Topic.Slot.ofCommand? c.target c.action).isSome

lemma Event.hasSlot_of_mem_commands {composer : Response.Composer} {e : Event} {c : Command}
    (h : c ∈ e.commands composer) : c.HasSlot := by
  obtain ⟨cue, payload⟩ := e
  cases cue <;> simp [Event.commands] at h <;>
    rcases h with rfl | rfl | rfl <;> rfl

lemma Phase.hasSlot_of_mem_compensation {p : Phase} {c : Command} (h : c ∈ p.compensation) :
    c.HasSlot := by
  cases p <;> simp [Phase.compensation] at h <;> rcases h with rfl | rfl | rfl <;> rfl

namespace Machine

lemma hasSlot_of_mem_call {m : Machine} {call : Call} {c : Command}
    (h : c ∈ (m.call call).1.commands) : c.HasSlot := by
  cases call with
  | handle e now =>
    rw [call_handle] at h
    rcases m.handle_cases e now with ⟨-, heq⟩ | ⟨s, -, heq⟩ | ⟨-, -, reason, heq⟩
    · rw [heq] at h
      exact Event.hasSlot_of_mem_commands h
    · rw [heq] at h
      rcases List.mem_append.1 h with h | h
      · exact Phase.hasSlot_of_mem_compensation h
      · exact Event.hasSlot_of_mem_commands h
    · rw [heq] at h
      exact absurd h List.not_mem_nil
  | expire now =>
    rcases m.expire_cases now with ⟨s, -, -, heq⟩ | ⟨-, heq⟩
    · rw [call_expire_some heq] at h
      exact Phase.hasSlot_of_mem_compensation h
    · rw [call_expire_none heq] at h
      exact absurd h List.not_mem_nil
  | complete =>
    rw [commands_call_complete] at h
    exact absurd h List.not_mem_nil

lemma hasSlot_of_mem_commandLog {m : Machine} {cs : List Call} {c : Command}
    (h : c ∈ m.commandLog cs) : c.HasSlot := by
  induction cs generalizing m with
  | nil => exact absurd h List.not_mem_nil
  | cons call cs ih =>
    rw [commandLog_cons] at h
    rcases List.mem_append.1 h with h | h
    · exact hasSlot_of_mem_call h
    · exact ih h

end Machine

namespace Conductor

namespace Worker

lemma addressed_append (w : Worker) (cs ds : List Command) :
    w.addressed (cs ++ ds) = w.addressed cs ++ w.addressed ds := List.filterMap_append

lemma addressed_eq {w w' : Worker} (h : w'.registry = w.registry) : w'.addressed = w.addressed := by
  unfold addressed
  rw [h]

/-- No command that has a slot is left out of `Worker.addressed`. -/
lemma map_fst_addressed (w : Worker) {commands : List Command} (h : ∀ c ∈ commands, c.HasSlot) :
    (w.addressed commands).map Prod.fst = commands := by
  induction commands with
  | nil => rfl
  | cons c commands ih =>
    obtain ⟨slot, hslot⟩ := Option.isSome_iff_exists.1 (h c List.mem_cons_self)
    have hcons : w.addressed (c :: commands) =
        (c, w.registry.topic slot) :: w.addressed commands := by
      simp only [addressed, List.filterMap_cons, Topic.Registry.ofCommand?, hslot, Option.map_some]
    rw [hcons, List.map_cons, ih fun d hd => h d (List.mem_cons_of_mem _ hd)]

lemma topic_of_addressed (w : Worker) {commands : List Command} {p : Command × String}
    (h : p ∈ w.addressed commands) : w.registry.ofCommand? p.1.target p.1.action = some p.2 := by
  obtain ⟨c, -, hc⟩ := List.mem_filterMap.1 h
  obtain ⟨topic, htopic, rfl⟩ := Option.map_eq_some_iff.1 hc
  exact htopic

end Worker

namespace Shift

variable {s : Shift} {answer : Nat → Except Bus.Failure Unit}

/-! ## What has been attempted -/

/-- The commands `done` have been attempted: given to the bus in this order, answered one after the
other, and every answer reported once and, if it was an error, counted once. -/
structure Account (answer : Nat → Except Bus.Failure Unit) (s : Shift)
    (done : List (Command × String)) : Prop where
  messages : s.attempts.map Attempt.message =
    done.map fun p => ⟨p.2, p.1.payload, s.worker.qos⟩
  results : s.attempts.map Attempt.result = (List.range s.attempts.length).map answer
  reports : s.notices.filter Notice.isReport =
    List.zipWith (fun p a => report p.1 a.message.topic a.result) done s.attempts
  failures : s.worker.tally.publishFailures = s.attempts.countP Attempt.hasFailed

namespace Account

variable {done : List (Command × String)}

lemma length_eq (h : s.Account answer done) : s.attempts.length = done.length := by
  have hlength := congrArg List.length h.messages
  rwa [List.length_map, List.length_map] at hlength

/-- One more `attempt`, whatever its answer. -/
lemma attempt (h : s.Account answer done) {c : Command} {topic : String}
    {rest : List (Command × String)} {ending : Option Phase}
    (hjob : s.worker.job = .sending (c, topic) rest ending) :
    (s.attempt answer).Account answer (done ++ [(c, topic)]) := by
  rw [attempt_eq hjob]
  constructor
  · rw [List.map_append, h.messages, List.map_append]
    simp
  · rw [List.map_append, h.results, List.length_append, List.length_singleton, List.range_succ,
      List.map_append]
    rfl
  · rw [List.filter_append, h.reports, List.filter_cons_of_pos (isReport_report ..),
      Worker.filter_isReport_proceed, List.zipWith_append h.length_eq.symm]
    rfl
  · rw [Worker.publishFailures_proceed, Worker.publishFailures_noted, List.countP_append,
      h.failures, List.countP_singleton]
    rfl

/-- A `react` attempts nothing. -/
lemma took_react (h : s.Account answer done) (o : Outcome) (machine : Machine) :
    (s.took (s.worker.react o machine)).Account answer done := by
  rw [took, Worker.react_eq]
  constructor
  · simpa using h.messages
  · exact h.results
  · simpa using h.reports
  · simpa using h.failures

end Account

/-! ## The simulation -/

/-- The worker stands where the machine on its own stands after a run with the given commands:
`Worker.settled` is that machine, and the commands of the run are those in `done` and those that are
`pending`. -/
structure Refines (answer : Nat → Except Bus.Failure Unit) (s : Shift) (m : Machine)
    (commands : List Command) : Prop where
  settled : s.worker.settled = m
  account : ∃ done, s.Account answer done ∧ s.worker.addressed commands = done ++ s.worker.pending

namespace Refines

variable {m : Machine} {commands : List Command}

lemma machine_eq (h : s.Refines answer m commands) (hjob : s.worker.job = .waiting) :
    s.worker.machine = m := by
  rw [← h.settled, Worker.settled, hjob]

/-- An `attempt` is no step of the machine. -/
lemma attempt (h : s.Refines answer m commands) : (s.attempt answer).Refines answer m commands := by
  rcases s.worker.sending_or_pending_eq_nil with ⟨c, topic, rest, ending, hjob⟩ | hpending
  · obtain ⟨hsettled, done, hdone, hcommands⟩ := h
    -- the command moves from those that are left to those that are done
    refine ⟨?_, done ++ [(c, topic)], hdone.attempt hjob, ?_⟩
    · rw [attempt_eq hjob]
      show Worker.settled (Worker.proceed _ rest ending).1 = m
      rw [Worker.settled_proceed, Worker.machine_noted, ← hsettled, Worker.settled, hjob]
      cases ending <;> rfl
    · have hregistry : (s.attempt answer).worker.registry = s.worker.registry := by
        rw [attempt_eq hjob]
        simp
      rw [Worker.addressed_eq hregistry, hcommands, pending_attempt, Worker.pending, hjob,
        List.append_assoc]
      rfl
  · rwa [attempt_of_pending_nil hpending]

/-- A `rouse` is a call on the machine, and `complete` if the call ends the turn. -/
lemma rouse (h : s.Refines answer m commands) (hjob : s.worker.job = .waiting) (o : Occasion) :
    (s.rouse o).Refines answer (m.after (m.callsFor o))
      (commands ++ m.commandLog (m.callsFor o)) := by
  have hmachine := h.machine_eq hjob
  obtain ⟨hsettled, done, hdone, hcommands⟩ := h
  have hpending := Worker.pending_of_waiting hjob
  rw [hpending, List.append_nil] at hcommands
  rw [Machine.after_callsFor, Machine.commandLog_callsFor]
  rcases s.rouse_cases o with ⟨outcome, machine, hcall, heq⟩ | ⟨hcall, heq⟩ <;>
    rw [hmachine] at hcall <;> rw [hcall, heq]
  · -- nothing was left, so what is left now are the commands of the outcome
    refine ⟨?_, done, hdone.took_react outcome machine, ?_⟩
    · rw [took, Worker.react_eq]
      show Worker.settled (Worker.proceed _ _ _).1 = _
      rw [Worker.settled_proceed, Worker.machine_adopt, isSome_ending?]
    · rw [took, Worker.react_eq]
      show Worker.addressed (Worker.proceed _ _ _).1 _ =
        done ++ Worker.pending (Worker.proceed _ _ _).1
      rw [Worker.pending_proceed, Worker.addressed_eq (w := s.worker) (by simp),
        Worker.addressed_append, hcommands]
      rfl
  · refine ⟨?_, done, hdone, ?_⟩
    · rw [hsettled]
      rfl
    · rw [hpending, List.append_nil]
      simpa [Reply.commands] using hcommands

lemma serve (h : s.Refines answer m commands) (hjob : s.worker.job = .waiting) (o : Occasion) :
    (s.serve answer o).Refines answer (m.after (m.callsFor o))
      (commands ++ m.commandLog (m.callsFor o)) ∧ (s.serve answer o).worker.job = .waiting :=
  serve_induction (P := fun t => t.Refines answer _ _) hjob (h.rouse hjob o)
    fun _ ht => ht.attempt

lemma run (h : s.Refines answer m commands) (hjob : s.worker.job = .waiting)
    (occasions : List Occasion) :
    (s.run answer occasions).Refines answer (m.after (m.schedule occasions))
      (commands ++ m.commandLog (m.schedule occasions)) ∧
      (s.run answer occasions).worker.job = .waiting := by
  induction occasions generalizing s m commands with
  | nil =>
    rw [Machine.schedule, Machine.after_nil, Machine.commandLog_nil, List.append_nil]
    exact ⟨h, hjob⟩
  | cons o occasions ih =>
    obtain ⟨hserve, hwaits⟩ := h.serve hjob o
    have hrest := ih hserve hwaits
    rwa [Machine.schedule, Machine.after_append, Machine.commandLog_append, ← List.append_assoc]

/-- A worker that waits has attempted all commands that `HasSlot`. -/
lemma exists_account (h : s.Refines answer m commands) (hjob : s.worker.job = .waiting)
    (hslots : ∀ c ∈ commands, c.HasSlot) :
    ∃ done, s.Account answer done ∧ done.map Prod.fst = commands ∧
      ∀ p ∈ done, s.worker.registry.ofCommand? p.1.target p.1.action = some p.2 := by
  obtain ⟨-, done, hdone, hcommands⟩ := h
  rw [Worker.pending_of_waiting hjob, List.append_nil] at hcommands
  rw [← hcommands] at hdone
  exact ⟨_, hdone, s.worker.map_fst_addressed hslots, fun _ hp => s.worker.topic_of_addressed hp⟩

end Refines

/-! ## Two answers of the bus -/

/-- Two shifts agree on everything but the answers of the bus: on `Worker.blind`, on the messages,
and on the notices that are no `isReport`. -/
structure Agree (s s' : Shift) : Prop where
  worker : s.worker.blind = s'.worker.blind
  messages : s.attempts.map Attempt.message = s'.attempts.map Attempt.message
  others : s.notices.filter (!·.isReport) = s'.notices.filter (!·.isReport)

namespace Agree

variable {s' : Shift} {answer' : Nat → Except Bus.Failure Unit}

lemma job_eq (h : s.Agree s') : s.worker.job = s'.worker.job := by
  show s.worker.blind.job = s'.worker.blind.job
  rw [h.worker]

lemma pending_eq (h : s.Agree s') : s.worker.pending = s'.worker.pending := by
  rw [Worker.pending, h.job_eq]
  rfl

lemma qos_eq (h : s.Agree s') : s.worker.qos = s'.worker.qos := by
  show s.worker.blind.qos = s'.worker.blind.qos
  rw [h.worker]

lemma machine_eq (h : s.Agree s') : s.worker.machine = s'.worker.machine := by
  show s.worker.blind.machine = s'.worker.blind.machine
  rw [h.worker]

lemma took (h : s.Agree s') {w w' : Worker × List Notice} (hw : w.1.blind = w'.1.blind)
    (hn : w.2.filter (!·.isReport) = w'.2.filter (!·.isReport)) :
    (s.took w).Agree (s'.took w') where
  worker := hw
  messages := h.messages
  others := by
    show List.filter _ (_ ++ _) = List.filter _ (_ ++ _)
    rw [List.filter_append, List.filter_append, h.others, hn]

lemma rouse (h : s.Agree s') (o : Occasion) : (s.rouse o).Agree (s'.rouse o) := by
  rcases s.rouse_cases o with ⟨outcome, machine, hcall, heq⟩ | ⟨hcall, heq⟩ <;>
    rcases s'.rouse_cases o with ⟨outcome', machine', hcall', heq'⟩ | ⟨hcall', heq'⟩ <;>
    rw [h.machine_eq, hcall'] at hcall <;> cases hcall <;> rw [heq, heq']
  -- the machines are the same, so either both of them answer with an outcome or none does
  · have hreact : s.worker.blind.react outcome machine = s'.worker.blind.react outcome machine := by
      rw [h.worker]
    rw [Worker.react_blind, Worker.react_blind] at hreact
    have hnotices := congrArg Prod.snd hreact
    exact h.took (congrArg Prod.fst hreact) (congrArg _ hnotices)
  · exact h

lemma attempt (h : s.Agree s') : (s.attempt answer).Agree (s'.attempt answer') := by
  rcases s.worker.sending_or_pending_eq_nil with ⟨c, topic, rest, ending, hjob⟩ | hpending
  · have hjob' : s'.worker.job = .sending (c, topic) rest ending := h.job_eq.symm.trans hjob
    have hproceed (result result' : Except Bus.Failure Unit) :
        (s.worker.noted result).blind.proceed rest ending =
          (s'.worker.noted result').blind.proceed rest ending := by
      rw [Worker.blind_noted, Worker.blind_noted, h.worker]
    rw [attempt_eq hjob, attempt_eq hjob']
    have hboth := hproceed (answer s.attempts.length) (answer' s'.attempts.length)
    rw [Worker.proceed_blind, Worker.proceed_blind] at hboth
    have hnotices := congrArg Prod.snd hboth
    constructor
    · exact congrArg Prod.fst hboth
    · rw [List.map_append, List.map_append, h.messages, h.qos_eq]
      rfl
    · rw [List.filter_append, List.filter_append, h.others,
        List.filter_cons_of_neg (by simp), List.filter_cons_of_neg (by simp)]
      exact congrArg (_ ++ List.filter _ ·) hnotices
  · have hpending' : s'.worker.pending = [] := h.pending_eq.symm.trans hpending
    rwa [attempt_of_pending_nil hpending, attempt_of_pending_nil hpending']

lemma run (h : s.Agree s') (occasions : List Occasion) :
    (s.run answer occasions).Agree (s'.run answer' occasions) := by
  induction occasions generalizing s s' with
  | nil => exact h
  | cons o occasions ih =>
    have hrouse := h.rouse o
    -- both shifts have the same commands left, hence make the same number of attempts
    have hserve (n : Nat) : ((Shift.attempt answer)^[n] (s.rouse o)).Agree
        ((Shift.attempt answer')^[n] (s'.rouse o)) := by
      induction n with
      | zero => exact hrouse
      | succ n ih =>
        rw [Function.iterate_succ_apply', Function.iterate_succ_apply']
        exact ih.attempt
    refine ih ?_
    rw [serve, serve, hrouse.pending_eq]
    exact hserve _

end Agree

/-! ## The result -/

/-- What a worker attempts to send, whatever the bus answers, is the `commandLog` of its machine:
one attempt for each command in order, on the topic that the registry has for it, reported once, and
counted if it has failed. Two runs with other answers differ in nothing else. -/
theorem run_refines_machine (registry : Topic.Registry) (qos : Bus.Qos) (m : Machine)
    (occasions : List Occasion) :
    let commands := m.commandLog (m.schedule occasions)
    -- what the worker attempts is what the machine commands
    (∀ answer : Nat → Except Bus.Failure Unit,
      let s := (fresh registry qos m).run answer occasions
      s.worker.job = .waiting ∧
      s.worker.machine = m.after (m.schedule occasions) ∧
      List.Forall₂ (fun c a => registry.ofCommand? c.target c.action = some a.message.topic ∧
        a.message.payload = c.payload ∧ a.message.qos = qos) commands s.attempts ∧
      s.attempts.map Attempt.result = (List.range commands.length).map answer ∧
      s.notices.filter Notice.isReport =
        List.zipWith (fun c a => report c a.message.topic a.result) commands s.attempts ∧
      s.worker.tally.publishFailures = s.attempts.countP Attempt.hasFailed) ∧
    -- what the answers of the bus do not touch
    ∀ answer answer' : Nat → Except Bus.Failure Unit,
      let s := (fresh registry qos m).run answer occasions
      let s' := (fresh registry qos m).run answer' occasions
      s.worker.machine = s'.worker.machine ∧
      { s.worker.tally with publishFailures := 0 } =
        { s'.worker.tally with publishFailures := 0 } ∧
      s.worker.shown = s'.worker.shown ∧
      s.attempts.map Attempt.message = s'.attempts.map Attempt.message ∧
      s.notices.filter (!·.isReport) = s'.notices.filter (!·.isReport) := by
  intro commands
  constructor
  · intro answer s
    have hfresh : (fresh registry qos m).Refines answer m [] :=
      ⟨rfl, [], ⟨rfl, rfl, rfl, rfl⟩, rfl⟩
    obtain ⟨hrefines, hjob⟩ := hfresh.run rfl occasions
    obtain ⟨hregistry, hqos⟩ : s.worker.registry = registry ∧ s.worker.qos = qos :=
      registry_qos_run rfl occasions
    obtain ⟨done, hdone, hfst, htopics⟩ := hrefines.exists_account hjob fun _ hc =>
      Machine.hasSlot_of_mem_commandLog hc
    have hcommands : commands = done.map Prod.fst := hfst.symm
    refine ⟨hjob, hrefines.machine_eq hjob, ?_, ?_, ?_, hdone.failures⟩
    · have hmessages : List.Forall₂ (fun (c : Command) (message : Bus.Message) =>
          registry.ofCommand? c.target c.action = some message.topic ∧
          message.payload = c.payload ∧ message.qos = qos) commands
          (s.attempts.map Attempt.message) := by
        rw [hdone.messages, hcommands, List.forall₂_map_right_iff, List.forall₂_map_left_iff,
          List.forall₂_same]
        intro p hp
        rw [← htopics p hp, hregistry]
        exact ⟨rfl, rfl, hqos⟩
      exact List.forall₂_map_right_iff.1 hmessages
    · rw [hdone.results, hdone.length_eq, hcommands, List.length_map]
    · rw [hdone.reports, hcommands, List.zipWith_map_left]
  · intro answer answer' s s'
    have hagree : s.Agree s' := Agree.run ⟨rfl, rfl, rfl⟩ occasions
    refine ⟨hagree.machine_eq, ?_, ?_, hagree.messages, hagree.others⟩
    · show s.worker.blind.tally = s'.worker.blind.tally
      rw [hagree.worker]
    · show s.worker.blind.shown = s'.worker.blind.shown
      rw [hagree.worker]

end Shift

end Conductor

end VoiceTurn
