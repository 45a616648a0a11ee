import Mathlib.Tactic.Lemma
import VoiceTurn.Proofs.Conductor.Worker
import VoiceTurn.Proofs.Line.Codec
import VoiceTurn.Proofs.Topic.Routing
import VoiceTurn.Conductor.Site

/-!
# Captured texts on their way

The payload of a line that has been read can be written again under any topic, unless a carriage
return stands in it: at the end of a line a carriage return is a break and is taken off, inside it
is part of the payload, and a payload with a carriage return is never written. The conductor passes
a captured text on as it is, so on a link a text with a carriage return inside is refused when it
is to be sent, and every other text goes out byte for byte. No refused payload is tried again.
-/

namespace VoiceTurn

open Bus (Failure Message)
open Line (Link carriageReturn newline)
open Topic (isPublishable)

namespace Line.Link

variable {ρ : Type} {l : Link ρ} (message : Message)

/-- A message for which `Line.write` has no line is refused, and nothing is written. -/
lemma publish_of_error {f : Failure} (h : write message.topic message.payload = .error f) :
    l.publish message = (.error f, l) := by
  rw [publish, h]

/-- An output that `accepts` takes the line of a message. -/
lemma publish_of_accepts {line : Bytes} (h : write message.topic message.payload = .ok line)
    (haccepts : l.nextWriting = .accepts) :
    l.publish message = (.ok (), { l with output := l.output ++ line }) := by
  rw [publish, h, haccepts]
  simp only [countWriting, publishTo, h]

/-- An output that does not accept a line is the reason for the failure, not the message. -/
lemma publish_of_not_accepts {line : Bytes} (h : write message.topic message.payload = .ok line)
    (hbroken : l.nextWriting ≠ .accepts) :
    ∃ reason l', l.publish message = (.error (.publish message.topic reason), l') := by
  rw [publish, h]
  cases hnext : l.nextWriting with
  | accepts => exact absurd hnext hbroken
  | breaks count | keeps =>
    simp only [publishTo, h]
    exact ⟨_, _, rfl⟩

end Line.Link

namespace Conductor

/-- The command that `Event.commands` has for a captured text. -/
def recognition (text : Bytes) : Command := ⟨.intentRecognition, .recognize, text⟩

namespace Site

/-! ## The way of a captured text -/

/-- The next thing that the worker looks at is a captured text, and the machine accepts it. -/
structure Hears (s : Site) (text : Bytes) : Prop where
  registry : s.worker.registry.defect? = none
  job : s.worker.job = .waiting
  unstopped : s.isStopping = false
  next : ∃ items, s.inbox.items = ⟨.textCaptured, text⟩ :: items
  accepted : ∀ phase cue reason,
    (s.worker.machine.handle ⟨.textCaptured, text⟩ s.now).1 ≠ .discarded phase cue reason

/-- A worker over a link has one command left to send on `topic`: the `recognition` of the text. -/
structure Forwards (s : Site) (l : Link Receiver) (text : Bytes) (topic : String) : Prop where
  carrier : s.access.carrier = .link l
  publishable : isPublishable topic = true
  job : s.worker.job = .sending (recognition text, topic) [] none

/-- In one step to `s'` the text has been written: the output has grown by a line that `Line.read`
takes back to it, and the command is noted as sent. -/
structure Wrote (s : Site) (l : Link Receiver) (text : Bytes) (topic : String) (s' : Site) :
    Prop where
  output : ∃ line, Line.read line = .ok (some (topic, text)) ∧
    s'.access.carrier = .link { l with output := l.output ++ line }
  job : s'.worker.job = .waiting
  feed : s'.feed = s.feed.push (.commandIssued (recognition text) topic)

/-- In one step to `s'` the `recognition` has been given up, for the reason that is noted. -/
structure GaveUp (s : Site) (topic : String) (f : Failure) (s' : Site) : Prop where
  job : s'.worker.job = .waiting
  feed : s'.feed = s.feed.push (.publishFailed topic f)

variable {s : Site} {l : Link Receiver} {text : Bytes} {topic : String}

/-- Once a captured text is accepted, its `recognition` is all there is to send. -/
lemma Hears.workStep? (h : s.Hears text) (hcarrier : s.access.carrier = .link l) :
    ∃ s', s.workStep? = some s' ∧
      s'.Forwards l text (s.worker.registry.topic .recognizeIntent) := by
  obtain ⟨items, hitems⟩ := h.next
  have hawaited : (⟨.textCaptured, text⟩ : Event).cue ∈ s.worker.machine.phase.awaited := by
    rcases s.worker.machine.handle_cases ⟨.textCaptured, text⟩ s.now with
      ⟨hawaited, -⟩ | ⟨_, ⟨-, hcue, -⟩, -⟩ | ⟨-, -, reason, heq⟩
    · exact hawaited
    · cases hcue
    · exact absurd (congrArg Prod.fst heq) (h.accepted _ _ reason)
  have hjob : (s.worker.handle ⟨.textCaptured, text⟩ s.now).1.job =
      .sending (recognition text, s.worker.registry.topic .recognizeIntent) [] none := by
    unfold Worker.handle
    rw [Machine.handle_of_awaited _ _ hawaited]
    simp only [Worker.react_eq]
    rfl
  have hlook : s.workStep? = s.lookStep? := by simp only [Site.workStep?, h.job]
  rw [hlook, lookStep?, h.unstopped, Inbox.take?, hitems]
  have htopic := Topic.Registry.isPublishable_topic h.registry .recognizeIntent
  cases s.inbox.waiting <;> exact ⟨_, rfl, hcarrier, htopic, hjob⟩

namespace Forwards

/-- A worker that does not pause makes an `attempt` to send the text. -/
lemma workStep? (h : s.Forwards l text topic) (hpause : ∀ t ∈ s.pausedUntil, t ≤ s.now) :
    ∃ left, s.workStep? = some ({ s with left }.attempt ⟨topic, text, s.worker.qos⟩) := by
  have hmessage : s.worker.message? = some ⟨topic, text, s.worker.qos⟩ := by
    simp only [Worker.message?, h.job, recognition]
  unfold Site.workStep?
  rw [h.job, hmessage]
  cases hpaused : s.pausedUntil with
  | none => exact ⟨s.left, rfl⟩
  | some t =>
    have hnow : ¬ s.now < t := Nat.not_lt.2 (hpause t hpaused)
    exact ⟨s.left - 1, by simp [hnow, spend, hpaused]⟩

lemma attempt_of_ok (h : s.Forwards l text topic) {l' : Link Receiver} (qos : Bus.Qos)
    (hpublish : l.publish ⟨topic, text, qos⟩ = (.ok (), l')) :
    (s.attempt ⟨topic, text, qos⟩).worker.job = .waiting ∧
      (s.attempt ⟨topic, text, qos⟩).access.carrier = .link l' ∧
      (s.attempt ⟨topic, text, qos⟩).feed =
        s.feed.push (.commandIssued (recognition text) topic) := by
  unfold attempt
  rw [h.carrier]
  simp only [Bus.Carrier.publish, hpublish, Except.map, took, Worker.sent_eq _ h.job]
  exact ⟨rfl, rfl, rfl⟩

/-- An attempt that fails: if the failure `isPassing` the worker may pause and try again, otherwise
it gives the command up. -/
lemma attempt_of_error (h : s.Forwards l text topic) {l' : Link Receiver} (qos : Bus.Qos)
    {f : Failure} (hpublish : l.publish ⟨topic, text, qos⟩ = (.error f, l')) :
    (s.attempt ⟨topic, text, qos⟩).access.carrier = .link l' ∧
      ((f.isPassing = true ∧ (s.attempt ⟨topic, text, qos⟩).Forwards l' text topic ∧
          (s.attempt ⟨topic, text, qos⟩).feed = s.feed) ∨
        s.GaveUp topic f (s.attempt ⟨topic, text, qos⟩)) := by
  unfold attempt
  rw [h.carrier]
  simp only [Bus.Carrier.publish, hpublish, Except.map]
  cases hpause : s.retry.pauseAfter? (s.tried + 1) f with
  | some pause =>
    obtain ⟨hpassing, -⟩ := Bus.Retry.pauseAfter?_eq_some_iff.1 hpause
    exact ⟨rfl, .inl ⟨hpassing, ⟨rfl, h.publishable, h.job⟩, rfl⟩⟩
  | none =>
    simp only [took, Worker.sent_eq _ h.job, true_and]
    exact .inr ⟨rfl, rfl⟩

end Forwards

/-- A conductor over a link in the phase `transcribing`, with the text in its queue. -/
def transcribing (text : Bytes) : Site where
  access := { carrier := .link {} }
  retry := .never
  worker := ⟨.stock, .atLeastOnce, { Settings.stock.machine with
    session := some ⟨1, .transcribing, 0⟩, turns := 1 }, {}, {}, .waiting⟩
  inbox := { capacity := 1, items := [⟨.textCaptured, text⟩] }
  feed := .withCapacity 8
  ready := [.worker]

lemma hears_transcribing (text : Bytes) : (transcribing text).Hears text where
  registry := Topic.Registry.defect?_stock
  job := rfl
  unstopped := rfl
  next := ⟨[], rfl⟩
  accepted := nofun

/-- A carriage return inside a line is part of the payload that `Line.read` gives, and `Line.write`
refuses that payload. A conductor that hears such a text gives its `recognition` up. -/
theorem interior_return_is_refused :
    let line := Utf8.encode "rhasspy/speech-to-text/text-captured a\rb\n"
    let text := Utf8.encode "a\rb"
    let topic := "rhasspy/intent-recognition/recognize-intent"
    let failure : Failure := .invalidPayload topic "payload contains a line break"
    newline ∉ line.dropLast ∧
      Line.read line = .ok (some ("rhasspy/speech-to-text/text-captured", text)) ∧
      isPublishable topic = true ∧ Line.write topic text = .error failure ∧
      (transcribing text).Hears text ∧
      ∃ s s', (transcribing text).workStep? = some s ∧ s.workStep? = some s' ∧
        s'.feed.kept.head? = some (.publishFailed topic failure) ∧
        s'.access.carrier = .link {} := by
  refine ⟨by decide +kernel, by decide +kernel, by decide +kernel, by decide +kernel,
    hears_transcribing _, _, _, rfl, rfl, ?_, rfl⟩
  decide +kernel

/-- Whatever payload `Line.read` has given, `Line.write` takes it on every publishable topic, and it
reads back, unless it holds a carriage return. A text that a site `Hears` becomes the one command
that it `Forwards`; it is `Wrote` when the output works, and `GaveUp`, with nothing written, for a
carriage return. -/
theorem captured_text_is_forwarded {line : Bytes} {t : String} {text : Bytes}
    (hframed : newline ∉ line.dropLast) (hread : Line.read line = .ok (some (t, text))) :
    -- the line format
    (∀ u, isPublishable u = true →
      (carriageReturn ∉ text →
        ∃ out, Line.write u text = .ok out ∧ Line.read out = .ok (some (u, text))) ∧
      (carriageReturn ∈ text → Line.write u text =
        .error (.invalidPayload u "payload contains a line break"))) ∧
    -- the text is taken up
    (∀ (s : Site) (l : Link Receiver), s.access.carrier = .link l → s.Hears text →
      ∃ s', s.workStep? = some s' ∧
        s'.Forwards l text (s.worker.registry.topic .recognizeIntent)) ∧
    -- an attempt to pass it on
    (∀ (s : Site) (l : Link Receiver) (u : String), s.Forwards l text u →
      (∀ instant ∈ s.pausedUntil, instant ≤ s.now) → ∃ s', s.workStep? = some s' ∧
        (carriageReturn ∉ text → l.nextWriting = .accepts → s.Wrote l text u s') ∧
        (carriageReturn ∉ text → l.nextWriting ≠ .accepts →
          (∃ l', s'.Forwards l' text u ∧ s'.feed = s.feed) ∨
            ∃ reason, s.GaveUp u (.publish u reason) s') ∧
        (carriageReturn ∈ text →
          s.GaveUp u (.invalidPayload u "payload contains a line break") s' ∧
            s'.access.carrier = s.access.carrier)) := by
  have hnewline : newline ∉ text := Line.newline_not_mem_of_read hframed hread
  have hplain (hreturn : carriageReturn ∉ text) {u : String} (hu : isPublishable u = true) :
      ∃ out, Line.write u text = .ok out := by
    rw [Line.write_of_isPublishable hu, Line.any_isBreak_eq_false_iff.2 ⟨hnewline, hreturn⟩]
    exact ⟨_, rfl⟩
  have hbroken (hreturn : carriageReturn ∈ text) {u : String} (hu : isPublishable u = true) :
      Line.write u text = .error (.invalidPayload u "payload contains a line break") := by
    rw [Line.write_of_isPublishable hu, List.any_eq_true.2 ⟨carriageReturn, hreturn, rfl⟩]
    rfl
  refine ⟨fun u hu => ⟨fun hreturn => ?_, fun hreturn => hbroken hreturn hu⟩,
    fun s l hcarrier hhears => hhears.workStep? hcarrier, fun s l u hforwards hpause => ?_⟩
  · obtain ⟨out, hout⟩ := hplain hreturn hu
    exact ⟨out, hout, Line.read_of_write hout⟩
  · obtain ⟨left, hstep⟩ := hforwards.workStep? hpause
    have hu := hforwards.publishable
    have hforwards' : { s with left }.Forwards l text u := ⟨hforwards.carrier, hu, hforwards.job⟩
    refine ⟨_, hstep, fun hreturn haccepts => ?_, fun hreturn hrefuses => ?_, fun hreturn => ?_⟩
    · obtain ⟨out, hout⟩ := hplain hreturn hu
      obtain ⟨hjob, hcarrier, hfeed⟩ :=
        hforwards'.attempt_of_ok _ (Link.publish_of_accepts _ hout haccepts)
      exact ⟨⟨out, Line.read_of_write hout, hcarrier⟩, hjob, hfeed⟩
    · obtain ⟨out, hout⟩ := hplain hreturn hu
      obtain ⟨reason, l', hpublish⟩ :=
        Link.publish_of_not_accepts ⟨u, text, s.worker.qos⟩ hout hrefuses
      rcases (hforwards'.attempt_of_error _ hpublish).2 with ⟨-, hagain, hfeed⟩ | hgaveUp
      · exact .inl ⟨l', hagain, hfeed⟩
      · exact .inr ⟨reason, hgaveUp.job, hgaveUp.feed⟩
    · obtain ⟨hcarrier, hresult⟩ := hforwards'.attempt_of_error s.worker.qos
        (Link.publish_of_error _ (hbroken hreturn hu))
      -- a payload that can not be carried is not tried again
      rcases hresult with ⟨hpassing, -⟩ | hgaveUp
      · cases hpassing
      · exact ⟨⟨hgaveUp.job, hgaveUp.feed⟩, hcarrier.trans hforwards.carrier.symm⟩

/-- A text from a line that ends in a carriage return, which is not part of it. -/
theorem captured_text_is_forwarded_without_return :
    let line := Utf8.encode "rhasspy/speech-to-text/text-captured turn on\r\n"
    let text := Utf8.encode "turn on"
    let topic := "rhasspy/intent-recognition/recognize-intent"
    newline ∉ line.dropLast ∧
      Line.read line = .ok (some ("rhasspy/speech-to-text/text-captured", text)) ∧
      (transcribing text).Hears text ∧
      ∃ s s', (transcribing text).workStep? = some s ∧ s.workStep? = some s' ∧
        s.Wrote {} text topic s' := by
  intro line text topic
  have hframed : newline ∉ line.dropLast := by decide +kernel
  have hread : Line.read line = .ok (some ("rhasspy/speech-to-text/text-captured", text)) := by
    decide +kernel
  obtain ⟨-, hhears, hforwards⟩ := captured_text_is_forwarded hframed hread
  obtain ⟨s, hstep, hs⟩ := hhears (transcribing text) {} rfl (hears_transcribing text)
  have hunpaused : ∀ instant ∈ s.pausedUntil, instant ≤ s.now := by
    obtain rfl := Option.some.inj hstep
    nofun
  obtain ⟨s', hstep', hwrote, -⟩ := hforwards s {} _ hs hunpaused
  exact ⟨hframed, hread, hears_transcribing text, s, s', hstep, hstep',
    hwrote (by decide +kernel) rfl⟩

end Site

end Conductor

end VoiceTurn
