import VoiceTurn.Proofs.Turn.Run

/-!
# Who is listening

Three services hear the room: wake-word, voice-command and speech-to-text. This file follows which
of them listen while the commands of a run are obeyed one after the other, and shows that the wake
word is never awake together with one of the other two. What carries the argument is that the phase
alone decides who listens between two calls (`Phase.stages`); `Leads` says that a list of commands
gets from one such configuration to the next through exclusive ones only.
-/

namespace VoiceTurn

/-- Which of the services that hear the room are listening. -/
structure Stages where
  wakeWord : Bool
  voiceCommand : Bool
  speechToText : Bool
  deriving DecidableEq, Repr

namespace Stages

/-- Between two turns only the wake word is listened for. -/
def atRest : Stages := ⟨true, false, false⟩

def set (s : Stages) (target : Service) (on : Bool) : Stages :=
  match target with
  | .wakeWord => { s with wakeWord := on }
  | .voiceCommand => { s with voiceCommand := on }
  | .speechToText => { s with speechToText := on }
  | .intentRecognition | .textToSpeech => s

/-- Obeys one command, if it is `startListening` or `stopListening`. -/
def obey (s : Stages) (c : Command) : Stages :=
  match c.action with
  | .startListening => s.set c.target true
  | .stopListening => s.set c.target false
  | .recognize | .say => s

def obeyAll (s : Stages) (cs : List Command) : Stages := cs.foldl obey s

/-- The stages before, between and after the commands. -/
def points (s : Stages) : List Command → List Stages
  | [] => [s]
  | c :: cs => s :: (s.obey c).points cs

/-- Voice-command has stopped by itself when it reports `commandStopped` or `commandTimedOut`. -/
def report (s : Stages) (c : Cue) : Stages :=
  match c with
  | .commandStopped | .commandTimedOut => { s with voiceCommand := false }
  | .wakeDetected | .textCaptured | .intentRecognized => s

/-- What a reply says about the stages before its commands are obeyed: a cue counts only if the
event `advanced` the session. -/
def hear (s : Stages) : Reply → Stages
  | .outcome (.advanced _ cue _ _ _ _) => s.report cue
  | _ => s

def IsExclusive (s : Stages) : Prop :=
  ¬ (s.wakeWord = true ∧ (s.voiceCommand = true ∨ s.speechToText = true))

instance (s : Stages) : Decidable s.IsExclusive :=
  inferInstanceAs (Decidable (¬ (_ ∧ (_ ∨ _))))

/-! ## Getting from one configuration to another -/

/-- Obeying `cs` leads from `s` to `t`, and all `points` on the way are exclusive. -/
def Leads (s t : Stages) (cs : List Command) : Prop :=
  s.obeyAll cs = t ∧ ∀ p ∈ s.points cs, p.IsExclusive

instance (s t : Stages) (cs : List Command) : Decidable (s.Leads t cs) :=
  inferInstanceAs (Decidable (_ ∧ _))

lemma obeyAll_append (s : Stages) (cs ds : List Command) :
    s.obeyAll (cs ++ ds) = (s.obeyAll cs).obeyAll ds := List.foldl_append

/-- The `points` of `cs ++ ds` are those of `cs`, and those of `ds` from where `cs` has led. -/
lemma mem_points_append {s p : Stages} {cs ds : List Command} (h : p ∈ s.points (cs ++ ds)) :
    p ∈ s.points cs ∨ p ∈ (s.obeyAll cs).points ds := by
  induction cs generalizing s with
  | nil => exact .inr h
  | cons c cs ih =>
    rcases List.mem_cons.1 h with rfl | h
    · exact .inl List.mem_cons_self
    · exact (ih h).imp_left (List.mem_cons_of_mem _)

lemma Leads.append {s t u : Stages} {cs ds : List Command} (h : s.Leads t cs)
    (h' : t.Leads u ds) : s.Leads u (cs ++ ds) := by
  obtain ⟨rfl, hpoints⟩ := h
  refine ⟨(obeyAll_append s cs ds).trans h'.1, fun p hp => ?_⟩
  rcases mem_points_append hp with hp | hp
  · exact hpoints p hp
  · exact h'.2 p hp

end Stages

/-! ## The phases -/

def Phase.stages : Phase → Stages
  | .listening => ⟨false, true, true⟩
  | _ => .atRest

namespace Phase

lemma stages_exclusive (p : Phase) : p.stages.IsExclusive := by cases p <;> decide

/-- The `Phase.compensation` leads back to `atRest`. -/
lemma leads_compensation (p : Phase) : p.stages.Leads .atRest p.compensation := by
  cases p <;> decide

end Phase

/-- The `Event.commands` lead to the stages of `Phase.following`, whatever the payloads. -/
lemma Event.leads_commands {p : Phase} {e : Event} (h : e.cue ∈ p.awaited)
    (composer : Response.Composer) :
    (p.stages.report e.cue).Leads p.following.stages (e.commands composer) := by
  obtain ⟨cue, payload⟩ := e
  cases p <;> cases cue <;> simp [Phase.awaited] at h <;>
    exact ⟨rfl, by simp [Event.commands, Stages.points, Stages.report, Phase.stages, Stages.atRest,
      Stages.obey, Stages.set, Stages.IsExclusive, Command.start, Command.stop]⟩

namespace Machine

/-! ## Calls and runs -/

/-- The step lemma: one call `Leads` from the stages of the phase before it to those of the phase
after it. -/
lemma leads_call (m : Machine) (c : Call) (h : c = .complete → m.phase = .responding) :
    (m.phase.stages.hear (m.call c).1).Leads (m.call c).2.phase.stages (m.call c).1.commands := by
  have hsame : m.phase.stages.Leads m.phase.stages [] :=
    ⟨rfl, by simpa [Stages.points] using m.phase.stages_exclusive⟩
  cases c with
  | handle e now =>
    rw [call_handle]
    rcases m.handle_cases e now with ⟨hcue, heq⟩ | ⟨s, hs, heq⟩ | ⟨-, -, reason, heq⟩
    · rw [heq]
      exact Event.leads_commands hcue ..
    · -- the compensation first, then the wake sequence of the cleared machine
      have hwake : e.cue ∈ Phase.idle.awaited := by simp [hs.2.1, Phase.awaited]
      have hlead := Event.leads_commands hwake m.composer
      rw [hs.2.1] at hlead
      rw [heq, phase_of_session hs.1]
      exact s.phase.leads_compensation.append hlead
    · rw [heq]
      exact hsame
  | expire now =>
    rcases m.expire_cases now with ⟨s, hs, -, heq⟩ | ⟨-, heq⟩
    · rw [call_expire_some heq, phase_of_session hs]
      exact s.phase.leads_compensation
    · rw [call_expire_none heq]
      exact hsame
  | complete =>
    cases hs : m.session with
    | none =>
      rw [call_complete_none hs]
      exact hsame
    | some s =>
      -- a turn that is responding leaves the stages as they are at rest
      rw [call_complete_some hs]
      rw [h rfl] at hsame ⊢
      exact hsame

/-- What can be seen of one call: all `points` of its commands, the last of them as `final`, and the
`phase` of the machine after it. -/
structure Scene where
  points : List Stages
  final : Stages
  phase : Phase

/-- The scenes of a run, for services that begin as `s`. -/
def scenes (m : Machine) (s : Stages) : List Call → List Scene
  | [] => []
  | c :: cs =>
    let reply := (m.call c).1
    let next := (m.call c).2
    let final := (s.hear reply).obeyAll reply.commands
    ⟨(s.hear reply).points reply.commands, final, next.phase⟩ :: next.scenes final cs

/-- A `complete` is called only in the phase `responding`, as the worker does. -/
def CompletesResponding (m : Machine) : List Call → Prop
  | [] => True
  | c :: cs => (c = .complete → m.phase = .responding) ∧ (m.call c).2.CompletesResponding cs

lemma scenes_spec {m : Machine} {cs : List Call} (h : m.CompletesResponding cs) :
    ∀ scene ∈ m.scenes m.phase.stages cs,
      scene.final = scene.phase.stages ∧ ∀ p ∈ scene.points, p.IsExclusive := by
  induction cs generalizing m with
  | nil => simp [scenes]
  | cons c cs ih =>
    obtain ⟨hfinal, hpoints⟩ := m.leads_call c h.1
    intro scene hscene
    simp only [scenes, List.mem_cons] at hscene
    rcases hscene with rfl | hscene
    · exact ⟨hfinal, hpoints⟩
    · -- the stages that one call leaves behind are those that the next one is proved for
      rw [hfinal] at hscene
      exact ih h.2 scene hscene

/-- In every scene of a run the final stages are those that the phase says: the wake word listens as
`Phase.hearsWakeWord` has it, and the services that capture a command in the phase `listening` only.
At none of the `points` do they listen together. -/
theorem stages_follow_phase (policy : SecondWake) (patience : Nat)
    (composer : Response.Composer) (cs : List Call)
    (h : (fresh policy patience composer).CompletesResponding cs) :
    ∀ scene ∈ (fresh policy patience composer).scenes .atRest cs,
      (scene.final.wakeWord = true ↔ scene.phase.hearsWakeWord = true) ∧
      (scene.phase = .listening →
        scene.final.voiceCommand = true ∧ scene.final.speechToText = true) ∧
      (scene.phase ≠ .listening →
        scene.final.voiceCommand = false ∧ scene.final.speechToText = false) ∧
      ∀ p ∈ scene.points,
        ¬ (p.wakeWord = true ∧ (p.voiceCommand = true ∨ p.speechToText = true)) := by
  intro scene hscene
  obtain ⟨hfinal, hpoints⟩ := scenes_spec h scene hscene
  refine ⟨?_, ?_, ?_, hpoints⟩ <;> rw [hfinal] <;> cases scene.phase <;> decide

/-- A turn that is interrupted, one that stalls, and one that is completed. -/
theorem stages_follow_phase_three_turns :
    let m := fresh .interrupt 30000 (.ofPhrases {})
    let cs : List Call := [.handle ⟨.wakeDetected, []⟩ 0, .handle ⟨.commandStopped, []⟩ 4000,
      .handle ⟨.wakeDetected, []⟩ 5000, .expire 35000, .handle ⟨.wakeDetected, []⟩ 40000,
      .handle ⟨.commandTimedOut, []⟩ 48000, .handle ⟨.textCaptured, [104, 105]⟩ 49000,
      .handle ⟨.intentRecognized, [123, 125]⟩ 50000, .complete]
    m.CompletesResponding cs ∧ ∀ scene ∈ m.scenes .atRest cs,
      (scene.final.wakeWord = true ↔ scene.phase.hearsWakeWord = true) ∧
      (scene.phase = .listening →
        scene.final.voiceCommand = true ∧ scene.final.speechToText = true) ∧
      (scene.phase ≠ .listening →
        scene.final.voiceCommand = false ∧ scene.final.speechToText = false) ∧
      ∀ p ∈ scene.points,
        ¬ (p.wakeWord = true ∧ (p.voiceCommand = true ∨ p.speechToText = true)) := by
  intro m cs
  have hphase : (m.after (cs.take 8)).phase = .responding := by decide
  have h : m.CompletesResponding cs :=
    ⟨nofun, nofun, nofun, nofun, nofun, nofun, nofun, nofun, fun _ => hphase, trivial⟩
  exact ⟨h, stages_follow_phase .interrupt 30000 (.ofPhrases {}) cs h⟩

end Machine

end VoiceTurn
