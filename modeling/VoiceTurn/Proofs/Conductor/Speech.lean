import Mathlib.Tactic.Lemma
import VoiceTurn.Proofs.Conductor.Forwarding
import VoiceTurn.Proofs.Conductor.Operation
import VoiceTurn.Proofs.Response.Rendering
import VoiceTurn.Proofs.Turn.Lifecycle

/-!
# Responses on their way

The only command to say something answers a recognized intent, and what it carries is the composed
response (`Machine.isComposed_of_mem_call`). A worker keeps its composer from its start on, so
whatever it has left to say is such a response (`Worker.Speaks`), and since a response has no line
breaks, no bus ever refuses one for what is in it (`Site.Speaks.happens`).
-/

namespace VoiceTurn

open Bus (Access Carrier Failure Message)
open Line (Link)
open Response (Composer Phrases)
open Topic (Registry isPublishable)

/-! ## Payloads that no bus refuses -/

/-- A link refuses a payload as `invalidPayload` only for a line break in it. -/
lemma Line.Link.publish_ne_invalidPayload {ρ : Type} (l : Link ρ) {m : Message}
    (hm : m.payload.any Line.isBreak = false) (topic reason : String) :
    (l.publish m).1 ≠ .error (.invalidPayload topic reason) := by
  intro h
  cases hwrite : Line.write m.topic m.payload with
  | error f =>
    rw [l.publish_of_error m hwrite] at h
    apply Line.write_ne_invalidPayload hm m.topic topic reason
    rw [hwrite, Except.error.inj h]
  | ok line =>
    by_cases haccepts : l.nextWriting = .accepts
    · rw [l.publish_of_accepts m hwrite haccepts] at h
      cases h
    · obtain ⟨_, _, hpublish⟩ := l.publish_of_not_accepts m hwrite haccepts
      rw [hpublish] at h
      cases h

/-- Neither `Carrier` refuses a payload without line breaks. -/
lemma Bus.Carrier.publish_ne_invalidPayload {ρ : Type} (c : Carrier ρ) {m : Message}
    (hm : m.payload.any Line.isBreak = false) (topic reason : String) :
    (c.publish m).1 ≠ .error (.invalidPayload topic reason) := by
  intro h
  cases c with
  | inProcess b =>
    simp only [Carrier.publish, Local.publish] at h
    split_ifs at h
    · cases h
    · cases h
    · cases hrefusals : b.refusals <;> rw [hrefusals] at h <;> cases h
  | link l =>
    apply l.publish_ne_invalidPayload hm topic reason
    simp only [Carrier.publish] at h
    cases hresult : (l.publish m).1 with
    | error f =>
      rw [hresult] at h
      rw [Except.error.inj h]
    | ok =>
      rw [hresult] at h
      cases h

/-! ## Commands to say something -/

/-- If the command is one to `say` something, its payload is what `Composer.render` gives for some
payload. -/
def Command.IsComposed (composer : Composer) (c : Command) : Prop :=
  c.action = .say → ∃ payload, c.payload = composer.render payload

lemma Event.isComposed_of_mem_commands {composer : Composer} {e : Event} {c : Command}
    (h : c ∈ e.commands composer) : c.IsComposed composer := by
  intro hsay
  obtain ⟨cue, payload⟩ := e
  cases cue
  case intentRecognized =>
    simp only [Event.commands, List.mem_singleton] at h
    refine ⟨payload, ?_⟩
    rw [h]
  -- all other commands start or stop something, or pass a text on
  all_goals
    simp only [Event.commands, List.mem_cons, List.not_mem_nil, or_false] at h
    rcases h with rfl | rfl | rfl <;> cases hsay

lemma Phase.isComposed_of_mem_compensation (composer : Composer) {p : Phase} {c : Command}
    (h : c ∈ p.compensation) : c.IsComposed composer := by
  intro hsay
  cases p <;> simp [Phase.compensation] at h <;> rcases h with rfl | rfl | rfl <;> cases hsay

lemma Machine.isComposed_of_mem_call {m : Machine} {call : Call} {c : Command}
    (h : c ∈ (m.call call).1.commands) : c.IsComposed m.composer := by
  cases call with
  | handle e now =>
    rw [call_handle] at h
    rcases m.handle_cases e now with ⟨-, heq⟩ | ⟨s, -, heq⟩ | ⟨-, -, reason, heq⟩
    · rw [heq] at h
      exact Event.isComposed_of_mem_commands h
    · rw [heq] at h
      rcases List.mem_append.1 h with h | h
      · exact Phase.isComposed_of_mem_compensation _ h
      · exact Event.isComposed_of_mem_commands h
    · rw [heq] at h
      cases h
  | expire now =>
    rcases m.expire_cases now with ⟨s, -, -, heq⟩ | ⟨-, heq⟩
    · rw [call_expire_some heq] at h
      exact Phase.isComposed_of_mem_compensation _ h
    · rw [call_expire_none heq] at h
      cases h
  | complete =>
    rw [commands_call_complete] at h
    cases h

namespace Conductor

namespace Worker

/-! ## The worker -/

/-- The worker composes with `composer`, and every command that is `pending` is composed by it. -/
structure Speaks (w : Worker) (composer : Composer) : Prop where
  pending : ∀ p ∈ w.pending, p.1.IsComposed composer
  composer : w.machine.composer = composer

namespace Speaks

variable {w : Worker} {composer : Composer}

/-- After `react` the worker goes on with what the machine says. -/
lemma react (h : w.Speaks composer) {call : Call} {o : Outcome} {machine : Machine}
    (hcall : w.machine.call call = (.outcome o, machine)) :
    (w.react o machine).1.Speaks composer := by
  have hcomposer : machine.composer = composer := by
    have hkept := Machine.composer_call w.machine call
    rw [hcall, h.composer] at hkept
    exact hkept
  have hcommands : ∀ c ∈ o.commands, c.IsComposed composer := by
    intro c hc
    have hcalled : c ∈ (w.machine.call call).1.commands := by
      rw [hcall]
      exact hc
    rw [← h.composer]
    exact Machine.isComposed_of_mem_call hcalled
  constructor
  · intro p hp
    rw [react_eq, pending_proceed] at hp
    obtain ⟨c, hc, hpair⟩ := List.mem_filterMap.1 hp
    obtain ⟨topic, -, rfl⟩ := Option.map_eq_some_iff.1 hpair
    exact hcommands c hc
  · rcases w.machine_react o machine with heq | heq
    · rw [heq, hcomposer]
    · rw [heq, Machine.composer_clear, hcomposer]

lemma sent (h : w.Speaks composer) {c : Command} {topic : String} {rest : List (Command × String)}
    {ending : Option Phase} (hjob : w.job = .sending (c, topic) rest ending)
    (result : Except Failure Unit) : (w.sent result).1.Speaks composer := by
  constructor
  · intro p hp
    rw [(sent_spec hjob result).2.1] at hp
    apply h.pending p
    rw [Worker.pending, hjob]
    exact List.mem_cons_of_mem _ hp
  · rcases machine_sent hjob result with heq | heq
    · rw [heq, h.composer]
    · rw [heq, Machine.composer_clear, h.composer]

/-- The command that is being sent `IsComposed`. -/
lemma isComposed (h : w.Speaks composer) {c : Command} {topic : String}
    {rest : List (Command × String)} {ending : Option Phase}
    (hjob : w.job = .sending (c, topic) rest ending) : c.IsComposed composer := by
  apply h.pending (c, topic)
  rw [Worker.pending, hjob]
  exact List.mem_cons_self

end Speaks

end Worker

/-! ## The site -/

/-- If the incident is a command to `say` something that was sent or given up, the command
`IsComposed`, and it was not refused for its payload. -/
def Incident.IsSpoken (composer : Composer) : Incident → Prop
  | .sent _ c _ result => c.action = .say → (∃ payload, c.payload = composer.render payload) ∧
      ∀ topic reason, result ≠ .error (.invalidPayload topic reason)
  | .delivered .. | .entered _ | .roused .. | .noted _ => True

lemma Incident.isSpoken_of_isArrival (composer : Composer) {i : Incident}
    (h : i.isArrival = true) : i.IsSpoken composer := by
  cases i with
  | sent => cases h
  | delivered | entered | roused | noted => trivial

lemma Incident.isSpoken_of_mem_noted (composer : Composer) {i : Incident} {notices : List Notice}
    (h : i ∈ notices.map .noted) : i.IsSpoken composer := by
  obtain ⟨n, -, rfl⟩ := List.mem_map.1 h
  trivial

namespace Site

variable {s s' : Site} {composer : Composer} {log : List Incident}

/-- What a worker that `Speaks` has sent, or given up, was not refused for its payload. -/
lemma isSpoken_sent (h : s.worker.Speaks composer) {c : Command} {topic : String}
    {rest : List (Command × String)} {ending : Option Phase}
    (hjob : s.worker.job = .sending (c, topic) rest ending) {result : Except Failure Unit}
    (hresult : ∀ f, result = .error f →
      (s.access.carrier.publish ⟨topic, c.payload, s.worker.qos⟩).1 = .error f) (now : Nat) :
    (Incident.sent now c topic result).IsSpoken composer := by
  intro hsay
  obtain ⟨payload, hpayload⟩ := h.isComposed hjob hsay
  refine ⟨⟨payload, hpayload⟩, ?_⟩
  intro refused reason hrefused
  have hbreaks : c.payload.any Line.isBreak = false := by
    rw [hpayload]
    exact composer.any_isBreak_render payload
  exact s.access.carrier.publish_ne_invalidPayload hbreaks refused reason (hresult _ hrefused)

/-- The `Works` of a worker that `Speaks` are all `IsSpoken`. -/
lemma Works.speaks (h : s.Works log s') (hspeaks : s.worker.Speaks composer) :
    s'.worker.Speaks composer ∧ ∀ i ∈ log, i.IsSpoken composer := by
  cases h with
  | stop => exact ⟨⟨List.forall_mem_nil _, hspeaks.composer⟩, List.forall_mem_nil _⟩
  | handle hjob hgoing htake =>
    refine ⟨hspeaks.react (Machine.call_handle _ _ _), ?_⟩
    exact List.forall_mem_cons.2 ⟨trivial, fun i => Incident.isSpoken_of_mem_noted composer⟩
  | expire hjob hgoing hitems hexpire =>
    refine ⟨hspeaks.react (Machine.call_expire_some hexpire), ?_⟩
    exact List.forall_mem_cons.2 ⟨trivial, fun i => Incident.isSpoken_of_mem_noted composer⟩
  | @send c topic rest ending ds carrier left hjob hpublish =>
    refine ⟨hspeaks.sent hjob (.ok ()), ?_⟩
    have hnothing : ∀ f, Except.ok () = Except.error f →
        (s.access.carrier.publish ⟨topic, c.payload, s.worker.qos⟩).1 = .error f := nofun
    intro i hi
    rcases List.mem_append.1 hi with harrived | hi
    · obtain ⟨m, e, free, rfl⟩ := Inbox.exists_of_mem_incidentsOf harrived
      trivial
    · rcases List.mem_cons.1 hi with rfl | hnoted
      · exact isSpoken_sent hspeaks hjob hnothing s.now
      · exact Incident.isSpoken_of_mem_noted composer hnoted
  | pause => exact ⟨hspeaks, List.forall_mem_nil _⟩
  | @giveUp c topic rest ending f carrier left hjob hpublish =>
    refine ⟨hspeaks.sent hjob (.error f), ?_⟩
    have hfailed : ∀ f', (.error f : Except Failure Unit) = .error f' →
        (s.access.carrier.publish ⟨topic, c.payload, s.worker.qos⟩).1 = .error f' := by
      intro f' hf'
      rw [hpublish, Except.error.inj hf']
    exact List.forall_mem_cons.2
      ⟨isSpoken_sent hspeaks hjob hfailed s.now, fun i => Incident.isSpoken_of_mem_noted composer⟩

/-- What `Happens` at a site changes nothing about what its worker says. -/
lemma Happens.speaks (h : s.Happens log s') (hspeaks : s.worker.Speaks composer) :
    s'.worker.Speaks composer ∧ ∀ i ∈ log, i.IsSpoken composer := by
  rcases h.works_or_idle with hworks | ⟨hworker, -, harrived⟩
  · exact hworks.speaks hspeaks
  · rw [hworker]
    exact ⟨hspeaks, fun i hi => Incident.isSpoken_of_isArrival composer (harrived i hi)⟩

/-- From a worker that `Speaks` on, every incident `IsSpoken`. -/
lemma Reaches.isSpoken {start : Site} (hspeaks : start.worker.Speaks composer)
    (h : start.Reaches log s) : s.worker.Speaks composer ∧ ∀ i ∈ log, i.IsSpoken composer := by
  apply h.induction (P := fun log s => s.worker.Speaks composer ∧ ∀ i ∈ log, i.IsSpoken composer)
  · exact ⟨hspeaks, List.forall_mem_nil _⟩
  · intro log more s s' hbefore hhappens
    obtain ⟨hafter, hmore⟩ := hhappens.speaks hbefore.1
    exact ⟨hafter, List.forall_mem_append.2 ⟨hbefore.2, hmore⟩⟩

/-- The document of `Composer.render` has one member, `text`, which is the sentence that `compose`
gives. On every publishable topic it has a line, which `Line.read` takes back. A conductor says
nothing but such documents, and whatever happens, none of them is refused for its payload. -/
theorem responses_are_carried (p : Phrases) :
    (∀ payload, ∃ text, Utf8.decode? ((Composer.ofPhrases p).render payload) = some text ∧
      Json.Value.read? text.toList =
        some (.object [("text", .string ((Composer.ofPhrases p).compose payload))])) ∧
    (∀ payload t, isPublishable t = true →
      ∃ line, Line.write t ((Composer.ofPhrases p).render payload) = .ok line ∧
        Line.read line = .ok (some (t, (Composer.ofPhrases p).render payload))) ∧
    ∀ (access access' : Access Receiver) (taps : List Tap) (retry : Bus.Retry) (r : Registry)
      (settings : Settings) (first s : Site) (log : List Incident),
      settings.responses = p → start access taps retry r settings = (.ok first, access') →
      first.Reaches log s → ∀ now c topic result, .sent now c topic result ∈ log →
        c.action = .say → (∃ payload, c.payload = (Composer.ofPhrases p).render payload) ∧
          ∀ refused reason, result ≠ .error (.invalidPayload refused reason) := by
  refine ⟨(Composer.ofPhrases p).read?_render, ?_, ?_⟩
  · intro payload t ht
    exact (Composer.ofPhrases p).exists_line_render payload ht
  · intro access access' taps retry r settings first s log hresponses hstart hreaches now c topic
      result hsent
    have hfirst : first.worker.Speaks (Composer.ofPhrases p) := by
      rw [(isStart_of_start hstart).worker, ← hresponses]
      exact ⟨List.forall_mem_nil _, rfl⟩
    exact (hreaches.isSpoken hfirst).2 _ hsent

end Site

end Conductor

end VoiceTurn
