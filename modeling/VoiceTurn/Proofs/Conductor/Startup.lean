import Mathlib.Tactic.Lemma
import Mathlib.Tactic.SplitIfs
import VoiceTurn.Proofs.Conductor.Deeds
import VoiceTurn.Proofs.Conductor.Unfolding

/-!
# Settings that have been accepted

Settings that pass their check fail nowhere later: their registry has no defect, a host starts with
them on any link that has not been started, and whatever happens then, every message that its worker
sends has a topic that no bus refuses (`Host.valid_settings_never_fail`). A worker sends commands on
the topics of its registry only (`Worker.IsAddressed`).
-/

namespace VoiceTurn

open Bus (Carrier Failure Message)
open Line (Link)
open Topic (Registry Slot isPublishable)

/-! ## Topics of commands -/

/-- No `Carrier` refuses a topic that can be published. -/
lemma Bus.Carrier.publish_ne_invalidTopic {ρ : Type} (c : Carrier ρ) {m : Message}
    (hm : isPublishable m.topic = true) (topic : String) :
    (c.publish m).1 ≠ .error (.invalidTopic topic) := by
  cases c with
  | inProcess b =>
    intro h
    simp only [Carrier.publish, Local.publish, hm, Bool.not_true, Bool.false_eq_true, if_false] at h
    split_ifs at h
    · cases h
    · cases hrefusals : b.refusals <;> rw [hrefusals] at h <;> cases h
  | link l =>
    intro h
    have hwrite := Line.write_of_isPublishable hm m.payload
    simp only [Carrier.publish, Link.publish, Link.publishTo, hwrite] at h
    split_ifs at h
    · cases h
    · cases hwriting : l.nextWriting <;> rw [hwriting] at h <;> cases h

/-- Whatever a rule in `Rule.table` sends has a slot. -/
lemma Rule.hasSlot_of_mem_directives :
    ∀ rule ∈ table, ∀ d ∈ rule.directives, (Slot.ofCommand? d.target d.action).isSome := by
  decide

section
variable {r : Registry} (hr : r.defect? = none) {service : Service} {action : Action}
include hr

lemma Topic.Registry.isPublishable_of_ofCommand? {topic : String}
    (h : r.ofCommand? service action = some topic) : isPublishable topic = true := by
  obtain ⟨slot, -, rfl⟩ := Option.map_eq_some_iff.1 h
  exact isPublishable_topic hr slot

lemma Topic.Registry.exists_topic (h : (Slot.ofCommand? service action).isSome) :
    ∃ topic, r.ofCommand? service action = some topic ∧ isPublishable topic = true := by
  obtain ⟨slot, hslot⟩ := Option.isSome_iff_exists.1 h
  refine ⟨r.topic slot, ?_, isPublishable_topic hr slot⟩
  rw [ofCommand?, hslot, Option.map_some]

end

namespace Conductor

/-! ## The worker -/

namespace Worker

/-- All that is `pending` goes to the topics that the registry has for it. -/
structure IsAddressed (w : Worker) (r : Registry) : Prop where
  registry : w.registry = r
  pending : ∀ p ∈ w.pending, r.ofCommand? p.1.target p.1.action = some p.2

namespace IsAddressed

variable {w : Worker} {r : Registry}

lemma react (h : w.IsAddressed r) (o : Outcome) (machine : Machine) :
    (w.react o machine).1.IsAddressed r := by
  rw [react_eq]
  refine ⟨by simpa using h.registry, fun p hp => ?_⟩
  rw [pending_proceed] at hp
  rw [← h.registry]
  exact w.topic_of_addressed hp

lemma handle (h : w.IsAddressed r) (e : Event) (now : Nat) :
    (w.handle e now).1.IsAddressed r :=
  h.react (w.machine.handle e now).1 (w.machine.handle e now).2

lemma sent (h : w.IsAddressed r) (result : Except Failure Unit) :
    (w.sent result).1.IsAddressed r := by
  cases hjob : w.job with
  | stopped | waiting =>
    simp only [Worker.sent, hjob]
    exact h
  | sending next rest ending =>
    -- what is left to send after this is part of what was left before
    rw [sent_eq result hjob]
    refine ⟨by simpa using h.registry, fun p hp => h.pending p ?_⟩
    rw [pending_proceed] at hp
    rw [Worker.pending, hjob]
    exact List.mem_cons_of_mem _ hp

lemma stop (h : w.IsAddressed r) : w.stop.IsAddressed r := ⟨h.registry, List.forall_mem_nil _⟩

/-- The `message?` to be sent next has a topic that can be published. -/
lemma isPublishable (h : w.IsAddressed r) (hr : r.defect? = none) {m : Message}
    (hm : w.message? = some m) : isPublishable m.topic = true := by
  unfold message? at hm
  cases hjob : w.job with
  | stopped | waiting => simp [hjob] at hm
  | sending next rest ending =>
    simp only [hjob] at hm
    cases hm
    refine Registry.isPublishable_of_ofCommand? hr (h.pending next ?_)
    rw [Worker.pending, hjob]
    exact List.mem_cons_self

end IsAddressed

end Worker

/-! ## The site -/

namespace Site

variable {s s' : Site} {r : Registry}

lemma isAddressed_of_works {log : List Incident} (h : s.worker.IsAddressed r)
    (hworks : s.Works log s') : s'.worker.IsAddressed r := by
  cases hworks with
  | stop => exact h.stop
  | handle => exact h.handle _ _
  | expire => exact h.react _ _
  | send => exact h.sent _
  | pause => exact h
  | giveUp => exact h.sent _

/-- The worker is changed by `workStep?` only. -/
lemma worker_step? (hstep : s.step? = some s') :
    s'.worker = s.worker ∨ s.workStep? = some s' := by
  cases steps_of_step? hstep with
  | read hread =>
    obtain ⟨⟨ds, carrier⟩, -, rfl⟩ := Option.map_eq_some_iff.1 hread
    exact .inl (delivered_deliverAll _ ds).worker
  | giveWay | rest => exact .inl rfl
  | @goOn p ps _ hready hpart =>
    cases p with
    | worker => exact .inr hpart
    | tap index =>
      obtain ⟨tap, -, tap', -, rfl⟩ := tapStep?_eq_some hpart
      exact .inl rfl

lemma isAddressed_step? (h : s.worker.IsAddressed r) (hstep : s.step? = some s') :
    s'.worker.IsAddressed r := by
  rcases worker_step? hstep with heq | hwork
  · rw [heq]
    exact h
  · obtain ⟨log, hworks⟩ := exists_works hwork
    exact isAddressed_of_works h hworks

end Site

/-! ## The host -/

namespace Host

/-- What can become of a host, whatever comes to its link, whatever becomes of the clock, and
whenever it is told to stop. -/
inductive Roams (start : Host) : Host → Prop where
  | start : Roams start start
  | link {h : Host} (hroams : Roams start h) (f : Link Receiver → Link Receiver) :
      Roams start (h.mapLink f)
  | step {h h' : Host} (hroams : Roams start h) (hstep : World.step? h = some h') : Roams start h'
  | nextRound {h h' : Host} (hroams : Roams start h) (hround : World.nextRound? h = some h') :
      Roams start h'
  | clock {h : Host} (hroams : Roams start h) (t : Nat) : Roams start (World.setClock h t)
  | order {h : Host} (hroams : Roams start h) : Roams start { h with isToldToStop := true }

@[simp] lemma worker_mapLink (h : Host) (f : Link Receiver → Link Receiver) :
    (h.mapLink f).site.worker = h.site.worker := (h.undisturbed_mapLink f).1.worker

section
variable {r : Registry} {h h' : Host}

/-- A `stageStep?` changes nothing about the worker. -/
lemma worker_stageStep? (hstep : h.stageStep? = some h') : h'.site.worker = h.site.worker := by
  rcases stageStep?_cases hstep with rfl | ⟨hdetaches, -⟩
  · exact Site.worker_wake _ _
  · exact hdetaches.site.worker

lemma isAddressed_step? (haddressed : h.site.worker.IsAddressed r)
    (hstep : World.step? h = some h') : h'.site.worker.IsAddressed r := by
  rcases step?_cases hstep with ⟨site, hsite, rfl⟩ | hstage
  · exact Site.isAddressed_step? haddressed hsite
  · rw [worker_stageStep? hstage]
    exact haddressed

/-- Wherever a host `Roams`, its worker keeps to its registry. -/
lemma isAddressed_of_roams {start : Host} (hstart : start.site.worker.IsAddressed r)
    (hroams : start.Roams h) : h.site.worker.IsAddressed r := by
  induction hroams with
  | start => exact hstart
  | link _ f ih =>
    rw [worker_mapLink]
    exact ih
  | step _ hstep ih => exact isAddressed_step? ih hstep
  | nextRound _ hround ih =>
    obtain ⟨site, hnext, rfl⟩ := Option.map_eq_some_iff.1 hround
    obtain ⟨-, rfl⟩ := Site.nextRound?_eq_some_iff.1 hnext
    exact ih
  | @clock h _ t ih =>
    obtain ⟨ready, hready⟩ := Site.wake_eq { h.site with now := t } .worker
    have hclock : (World.setClock h t).site = { { h.site with now := t } with ready } := hready
    rw [hclock]
    exact ih
  | order _ ih => exact ih

end

/-- A site that `IsStart` has a worker with nothing to send. -/
lemma isAddressed_of_isStart {site : Site} {r : Registry} {settings : Settings}
    (h : site.IsStart r settings) : site.worker.IsAddressed r := by
  rw [h.worker]
  exact ⟨rfl, List.forall_mem_nil _⟩

/-- Settings that pass `validate` fail nowhere later: their registry has no `defect?`, a host starts
on every unstarted link with five subscriptions, and two for its tap, and wherever it `Roams`, no
bus refuses the topic of its `message?`. Every directive of `Rule.table` and every
`Phase.compensation` has a topic, and the retry policy tries once at least. -/
theorem valid_settings_never_fail {settings : Settings} (hvalid : settings.validate = .ok ()) :
    (∃ r, settings.topics.registry = .ok r ∧ r.defect? = none ∧
      (∀ link : Link Receiver, link.reader = .unstarted →
        ∃ start, Host.start settings link = .ok start ∧
          start.site.subscriptions.length = 5 ∧
          start.tap.map (·.subscriptions.length) =
            (if settings.tap.enabled then some 2 else none) ∧
          requestsOf start.site.access.carrier.subscriptions = requestsOf link.subscriptions ++
            (tapRequests settings r ++ Site.inboxRequests r settings.bus.inboundQos) ∧
          ∀ h, start.Roams h → ∀ m, h.site.worker.message? = some m →
            isPublishable m.topic = true ∧
            ∀ (c : Carrier Receiver) topic, (c.publish m).1 ≠ .error (.invalidTopic topic)) ∧
      (∀ rule ∈ Rule.table, ∀ d ∈ rule.directives,
        ∃ topic, r.ofCommand? d.target d.action = some topic ∧ isPublishable topic = true) ∧
      ∀ phase : Phase, ∀ c ∈ phase.compensation,
        ∃ topic, r.ofCommand? c.target c.action = some topic ∧ isPublishable topic = true) ∧
    settings.bus.retry.policy.attempts = settings.bus.retry.attempts.toNat ∧
    1 ≤ settings.bus.retry.policy.attempts ∧
    settings.bus.retry.policy.initial ≤ settings.bus.retry.policy.cap := by
  obtain ⟨⟨r, hr, hdefect⟩, -, -, hattempts, hpauses⟩ := Settings.validate_spec hvalid
  have hpositive : 0 < settings.bus.retry.attempts.toNat := by
    rw [Nat.pos_iff_ne_zero]
    exact fun hzero => hattempts (UInt32.toNat_inj.1 hzero)
  refine ⟨⟨r, hr, hdefect, fun link hunstarted => ?_, fun rule hrule d hd => ?_,
    fun phase c hc => ?_⟩, Nat.max_eq_left hpositive, Nat.le_max_right _ _,
    UInt64.le_iff_toNat_le.1 hpauses⟩
  · -- the reader is started last, and leaves the subscriptions as they have been made
    obtain ⟨site, tap, hstart, hbegun, hcarrier, hfive, htwo⟩ :=
      exists_start_on hdefect hr hunstarted
    have hsite : (mapLink { site, tap } fun l => l.start.2) =
        { site := { site with access := { site.access with carrier := .link (Link.start { link with
            limit := max settings.bus.maxLine.toNat 1
            subscriptions := link.subscriptions.grantAll (tapRequests settings r ++
              Site.inboxRequests r settings.bus.inboundQos) }).2 } }, tap } := by
      unfold mapLink
      simp only [hcarrier]
    refine ⟨_, hstart, ?_, ?_, ?_, fun h hroams m hm => ?_⟩
    · rw [hsite]
      exact hfive
    · rw [hsite]
      exact htwo
    · rw [hsite, ← requestsOf_grantAll]
      simp only [Link.start, hunstarted, Carrier.subscriptions]
    · have hfirst : (mapLink { site, tap } fun l => l.start.2).site.worker.IsAddressed r := by
        rw [worker_mapLink]
        exact isAddressed_of_isStart hbegun
      have hm' := (isAddressed_of_roams hfirst hroams).isPublishable hdefect hm
      exact ⟨hm', fun c topic => c.publish_ne_invalidTopic hm' topic⟩
  · exact Registry.exists_topic hdefect (Rule.hasSlot_of_mem_directives rule hrule d hd)
  · exact Registry.exists_topic hdefect (Phase.hasSlot_of_mem_compensation hc)

/-- Settings with a `root` of their own, an override by which texts come as speech that has been
heard, and pauses that do not grow. -/
theorem valid_settings_never_fail_with_own_topics :
    let topics : TopicSettings :=
      { root := "den/" : TopicSettings }.withOverride Slot.textCaptured.name "den/heard"
    let retry : RetrySettings := { attempts := 5, initialPause := 20, longestPause := 20 }
    let settings : Settings := { topics, bus := { retry } }
    settings.validate = .ok () ∧ ∃ r, topics.registry = .ok r ∧ r.defect? = none ∧
      r.ofCue .textCaptured = "den/heard" ∧ r.ofCue .wakeDetected = "den/wake-word/detected" ∧
      r.ofCommand? .textToSpeech .say = some "den/text-to-speech/say-text" ∧
      retry.policy.attempts = 5 ∧ retry.policy.initial ≤ retry.policy.cap ∧
      ∃ start, Host.start settings {} = .ok start ∧
        start.site.subscriptions.length = 5 ∧
        start.tap.map (·.subscriptions.length) = some 2 ∧
        ∀ h, start.Roams h →
          ∀ m, h.site.worker.message? = some m → isPublishable m.topic = true := by
  intro topics retry settings
  have hregistry : topics.registry =
      .ok ((Registry.below "den/").replace .textCaptured "den/heard") :=
    TopicSettings.registry_withOverride_slot rfl .textCaptured "den/heard"
  have hbelow : (Registry.below "den/").defect? = none :=
    Registry.defect?_below_eq_none_iff.2
      ((Registry.isPublishable_topic_below_iff "den/" .wakeDetected).1 (by decide +kernel))
  have hfresh : ∀ c ∈ Cue.all, (Registry.below "den/").ofCue c ≠ "den/heard" := by decide +kernel
  have hdefect : ((Registry.below "den/").replace .textCaptured "den/heard").defect? = none :=
    Registry.defect?_replace hbelow (by decide +kernel) fun c _ => hfresh c c.mem_all
  have htopics : Settings.checkTopics topics = .ok () :=
    Settings.checkTopics_eq_ok_iff.2 ⟨by decide +kernel, _, hregistry, hdefect⟩
  have hvalid : settings.validate = .ok () :=
    Settings.validate_eq_ok_iff.2 ⟨by decide, by decide, htopics, by decide⟩
  obtain ⟨⟨r, hr, -, hstarts, -⟩, hattempts, -, hpauses⟩ := valid_settings_never_fail hvalid
  obtain rfl : _ = r := Except.ok.inj (hregistry.symm.trans hr)
  obtain ⟨start, hstart, hfive, htwo, -, hroams⟩ := hstarts {} rfl
  exact ⟨hvalid, _, hr, hdefect, rfl, by decide +kernel, by decide +kernel, hattempts, hpauses,
    start, hstart, hfive, htwo, fun h hh m hm => (hroams h hh m hm).1⟩

end Host

end Conductor

end VoiceTurn
