import VoiceTurn.Proofs.Turn.Run

/-!
# Redelivery

A bus that delivers at least once may deliver an event again. This file shows that copies of an
event, handed to the machine right after it, are invisible: every copy is discarded, and everything
else in the run stays the same. The reason is local. Handling an event leads to a machine that
discards the event (`rejects_after_handle`), and discarding leaves the machine as it is, down to the
deadline; completing the turn makes the machine idle, where only a wake word would be accepted.
-/

namespace VoiceTurn

/-- The cues that mean the same to a turn: `commandStopped` and `commandTimedOut` do, and all others
stand for themselves. -/
def Cue.synonyms : Cue → List Cue
  | wakeDetected => [.wakeDetected]
  | commandStopped | commandTimedOut => [.commandStopped, .commandTimedOut]
  | textCaptured => [.textCaptured]
  | intentRecognized => [.intentRecognized]

/-- Whether `d` reports the same as `e`, with whatever payload. -/
def Event.IsCopyOf (d e : Event) : Prop := d.cue ∈ e.cue.synonyms

namespace Event

variable {d e : Event}

lemma IsCopyOf.mem_awaited_iff (h : d.IsCopyOf e) (p : Phase) :
    d.cue ∈ p.awaited ↔ e.cue ∈ p.awaited := by
  unfold IsCopyOf at h
  cases p <;> cases he : e.cue <;> cases hd : d.cue <;>
    simp_all [Cue.synonyms, Phase.awaited]

lemma IsCopyOf.wakeDetected_iff (h : d.IsCopyOf e) :
    d.cue = .wakeDetected ↔ e.cue = .wakeDetected := by
  unfold IsCopyOf at h
  cases he : e.cue <;> cases hd : d.cue <;> simp_all [Cue.synonyms]

end Event

/-- No cue is in `Phase.awaited` for two phases in a row. -/
lemma Phase.not_mem_awaited_following {p : Phase} {c : Cue} (h : c ∈ p.awaited) :
    c ∉ p.following.awaited := by
  cases p <;> cases c <;> simp_all [Phase.awaited, Phase.following]

namespace Machine

/-! ## Machines that discard the copies of an event -/

/-- Whether every copy of `e`, at any instant, is `discarded` and leaves `m` as it is. -/
def Rejects (m : Machine) (e : Event) : Prop :=
  ∀ d : Event, d.IsCopyOf e → ∀ now,
    ∃ reason, m.handle d now = (.discarded m.phase d.cue reason, m)

/-- An event that is neither awaited nor `Interrupts` any session is rejected. -/
lemma rejects_of_not_awaited {m : Machine} {e : Event} (h : e.cue ∉ m.phase.awaited)
    (h' : ∀ s, ¬ m.Interrupts s e) : m.Rejects e := by
  intro d hd now
  refine m.handle_of_not_awaited now (fun hawaited => h ((hd.mem_awaited_iff _).1 hawaited)) ?_
  intro s hs
  exact h' s ⟨hs.1, hd.wakeDetected_iff.1 hs.2.1, hs.2.2⟩

/-- After `Machine.accept` for an event its copies are rejected: the phase has moved on, and the
phase after a wake word is not `interruptible`. -/
lemma rejects_accept {m : Machine} {e : Event} (now : Nat) (h : e.cue ∈ m.phase.awaited) :
    (m.accept now).Rejects e := by
  refine rejects_of_not_awaited (Phase.not_mem_awaited_following h) ?_
  rintro s ⟨hs, hcue, -, hphase⟩
  -- a wake word that was accepted has led to `listening`, where none can interrupt
  have hs' : s.phase = m.phase.following := by
    rw [session_accept] at hs
    rw [← Option.some.inj hs]
  rw [hs'] at hphase
  rw [hcue] at h
  cases hp : m.phase <;> simp_all [Phase.awaited, Phase.following, interruptible]

/-- Whatever `Machine.handle` does with an event, copies of it are rejected then. -/
lemma rejects_after_handle (m : Machine) (e : Event) (now : Nat) :
    (m.handle e now).2.Rejects e := by
  rcases m.handle_cases e now with ⟨he, heq⟩ | ⟨s, hs, heq⟩ | ⟨he, hno, reason, heq⟩
  · rw [heq]
    exact rejects_accept now he
  · rw [heq]
    exact rejects_accept now (by simp [hs.2.1, Phase.awaited])
  · rw [heq]
    exact rejects_of_not_awaited he hno

/-- Without a session everything but `wakeDetected` is rejected. -/
lemma rejects_clear (m : Machine) {e : Event} (h : e.cue ≠ .wakeDetected) : m.clear.Rejects e := by
  refine rejects_of_not_awaited (by simpa [Phase.awaited] using h) ?_
  rintro s ⟨-, hcue, -⟩
  exact h hcue

/-! ## Runs with copies -/

/-- A call with the `copies` that come right after it. -/
structure Redelivered where
  call : Call
  /-- Each copy, with the instant at which it is handled. -/
  copies : List (Event × Nat) := []

/-- The call and then its copies, which are marked by `true`. -/
def Redelivered.calls (r : Redelivered) : List (Call × Bool) :=
  (r.call, false) :: r.copies.map fun (e, now) => (.handle e now, true)

/-- The event of a call whose reply `endsTurn`. -/
def endedBy? (c : Call) (r : Reply) : Option Event :=
  match c with
  | .handle e _ => if r.endsTurn then some e else none
  | .expire _ | .complete => none

/-- The event whose copies may follow a call: its own or, after `complete`, the one that has `ended`
the turn. -/
def source? (ended : Option Event) : Call → Option Event
  | .handle e _ => some e
  | .expire _ => none
  | .complete => ended

/-- All `copies` are copies of the event that `source?` names, where `ended` has ended a turn right
before the run. -/
def CopiesFollow (m : Machine) (ended : Option Event) : List Redelivered → Prop
  | [] => True
  | r :: rs =>
    (∀ copy ∈ r.copies, ∃ e, source? ended r.call = some e ∧ copy.1.IsCopyOf e) ∧
      (m.call r.call).2.CopiesFollow (endedBy? r.call (m.call r.call).1) rs

/-- The `trace` of marked calls; the answers keep the marks. -/
def markedTrace (m : Machine) : List (Call × Bool) → List ((Reply × Machine) × Bool)
  | [] => []
  | (c, mark) :: cs => (m.call c, mark) :: (m.call c).2.markedTrace cs

lemma map_fst_markedTrace (m : Machine) (cs : List (Call × Bool)) :
    (m.markedTrace cs).map Prod.fst = m.trace (cs.map Prod.fst) := by
  induction cs generalizing m with
  | nil => rfl
  | cons c cs ih => rw [markedTrace, List.map_cons, ih]; rfl

lemma markedTrace_append (m : Machine) (cs ds : List (Call × Bool)) :
    m.markedTrace (cs ++ ds) =
      m.markedTrace cs ++ (m.after (cs.map Prod.fst)).markedTrace ds := by
  induction cs generalizing m with
  | nil => rfl
  | cons c cs ih => rw [List.cons_append, markedTrace, ih]; rfl

/-- The marked calls of a run are discarded, and all the others are answered as in the `plain`
run. -/
structure MarkedInvisible (m : Machine) (marked : List (Call × Bool)) (plain : List Call) :
    Prop where
  discarded : ∀ a ∈ m.markedTrace marked, a.2 = true →
    ∃ phase cue reason, a.1.1 = .outcome (.discarded phase cue reason)
  others : ((m.markedTrace marked).filter fun a => !a.2).map Prod.fst = m.trace plain
  commands : m.commandLog (marked.map Prod.fst) = m.commandLog plain
  after : m.after (marked.map Prod.fst) = m.after plain

lemma markedInvisible_nil (m : Machine) : m.MarkedInvisible [] [] where
  discarded := fun _ ha => absurd ha List.not_mem_nil
  others := rfl
  commands := rfl
  after := rfl

lemma MarkedInvisible.append {m : Machine} {marked marked' : List (Call × Bool)}
    {plain plain' : List Call} (h : m.MarkedInvisible marked plain)
    (h' : (m.after plain).MarkedInvisible marked' plain') :
    m.MarkedInvisible (marked ++ marked') (plain ++ plain') where
  discarded := by
    intro a ha hmark
    rw [markedTrace_append, h.after] at ha
    rcases List.mem_append.1 ha with ha | ha
    · exact h.discarded a ha hmark
    · exact h'.discarded a ha hmark
  others := by
    rw [markedTrace_append, h.after, List.filter_append, List.map_append, h.others, h'.others,
      trace_append]
  commands := by
    rw [List.map_append, commandLog_append, h.commands, h.after, h'.commands, commandLog_append]
  after := by
    rw [List.map_append, after_append, h.after, h'.after, after_append]

/-- A machine that rejects `e` does not see its copies. -/
lemma markedInvisible_copies {m : Machine} {e : Event} (hm : m.Rejects e)
    {copies : List (Event × Nat)} (h : ∀ copy ∈ copies, copy.1.IsCopyOf e) :
    m.MarkedInvisible (copies.map fun (e, now) => (.handle e now, true)) [] := by
  induction copies with
  | nil => exact markedInvisible_nil m
  | cons copy copies ih =>
    obtain ⟨d, now⟩ := copy
    obtain ⟨reason, hd⟩ := hm d (h _ List.mem_cons_self) now
    have hcall : m.call (.handle d now) = (.outcome (.discarded m.phase d.cue reason), m) := by
      rw [call_handle, hd]
    have hfirst : m.MarkedInvisible [(.handle d now, true)] [] := by
      refine ⟨fun a ha _ => ?_, rfl, ?_, ?_⟩
      · obtain rfl := List.mem_singleton.1 ha
        exact ⟨m.phase, d.cue, reason, congrArg Prod.fst hcall⟩
      · rw [List.map_singleton, commandLog_cons, hcall]
        rfl
      · rw [List.map_singleton, after_cons, hcall]
    exact hfirst.append (ih fun copy hcopy => h copy (List.mem_cons_of_mem _ hcopy))

/-- Only `intentRecognized` ends a turn. -/
lemma cue_of_endedBy? {m : Machine} {c : Call} {e : Event}
    (h : endedBy? c (m.call c).1 = some e) : e.cue = .intentRecognized := by
  cases c with
  | handle d now =>
    rw [call_handle] at h
    rcases m.handle_cases d now with ⟨-, heq⟩ | ⟨s, -, heq⟩ | ⟨-, -, reason, heq⟩ <;>
      rw [heq] at h <;> simp [endedBy?, Reply.endsTurn] at h
    obtain ⟨hcue, rfl⟩ := h
    exact hcue
  | expire now => simp [endedBy?] at h
  | complete => simp [endedBy?] at h

/-- The machine after a call rejects the event that `source?` names, which is what
`markedInvisible_copies` needs. -/
lemma rejects_source {m : Machine} {c : Call} {ended : Option Event} {e : Event}
    (hended : ∀ e, ended = some e → e.cue = .intentRecognized) (h : source? ended c = some e) :
    (m.call c).2.Rejects e := by
  cases c with
  | handle d now =>
    obtain rfl := Option.some.inj h
    exact m.rejects_after_handle d now
  | expire now => simp [source?] at h
  | complete =>
    -- the completion follows the intent of the turn, and an intent is not awaited when idle
    rw [call_complete_snd]
    exact m.rejects_clear (by simp [hended e h])

lemma markedInvisible_calls {m : Machine} {ended : Option Event} {r : Redelivered}
    (hended : ∀ e, ended = some e → e.cue = .intentRecognized)
    (h : ∀ copy ∈ r.copies, ∃ e, source? ended r.call = some e ∧ copy.1.IsCopyOf e) :
    m.MarkedInvisible r.calls [r.call] := by
  have hcall : m.MarkedInvisible [(r.call, false)] [r.call] :=
    ⟨by simp [markedTrace], rfl, rfl, rfl⟩
  cases hsource : source? ended r.call with
  | none =>
    -- copies of nothing: there are none
    have hnil : r.copies = [] := List.eq_nil_iff_forall_not_mem.2 fun copy hcopy => by
      obtain ⟨e, he, -⟩ := h copy hcopy
      rw [hsource] at he
      exact nomatch he
    simpa [Redelivered.calls, hnil] using hcall
  | some e =>
    refine hcall.append (markedInvisible_copies (rejects_source hended hsource) ?_)
    intro copy hcopy
    obtain ⟨e', he', hcopy'⟩ := h copy hcopy
    obtain rfl := Option.some.inj (hsource.symm.trans he')
    exact hcopy'

lemma markedInvisible_flatMap {m : Machine} {ended : Option Event} {rs : List Redelivered}
    (hended : ∀ e, ended = some e → e.cue = .intentRecognized) (h : m.CopiesFollow ended rs) :
    m.MarkedInvisible (rs.flatMap Redelivered.calls) (rs.map Redelivered.call) := by
  induction rs generalizing m ended with
  | nil => exact markedInvisible_nil m
  | cons r rs ih =>
    exact (markedInvisible_calls hended h.1).append (ih (fun _ => cue_of_endedBy?) h.2)

/-- When all copies come right after their event, or after the completion that it leads to
(`CopiesFollow`), each of them is `discarded` without commands. The rest of the trace, the
`commandLog`, the deadline and the machine are those of the `plain` run. -/
theorem copies_invisible (m : Machine) (rs : List Redelivered) (h : m.CopiesFollow none rs) :
    let marked := rs.flatMap Redelivered.calls
    let padded := marked.map Prod.fst
    let plain := rs.map Redelivered.call
    (m.markedTrace marked).map Prod.fst = m.trace padded ∧
      (∀ a ∈ m.markedTrace marked, a.2 = true →
        a.1.1.commands = [] ∧
          ∃ phase cue reason, a.1.1 = .outcome (.discarded phase cue reason)) ∧
      ((m.markedTrace marked).filter fun a => !a.2).map Prod.fst = m.trace plain ∧
      m.commandLog padded = m.commandLog plain ∧
      (m.after padded).deadline? = (m.after plain).deadline? ∧
      m.after padded = m.after plain := by
  intro marked padded plain
  have hm : m.MarkedInvisible marked plain := markedInvisible_flatMap (by simp) h
  refine ⟨m.map_fst_markedTrace marked, fun a ha hmark => ?_, hm.others, hm.commands,
    congrArg deadline? hm.after, hm.after⟩
  obtain ⟨phase, cue, reason, heq⟩ := hm.discarded a ha hmark
  exact ⟨by rw [heq]; rfl, phase, cue, reason, heq⟩

/-- Copies of a wake word that interrupts, of the end of a command, with a time-out for a copy, and
of an intent before and after `complete`. -/
theorem copies_invisible_interrupted_turn :
    let m := fresh .interrupt 30000 (.ofPhrases {})
    let wake : Event := ⟨.wakeDetected, []⟩
    let stop : Event := ⟨.commandStopped, []⟩
    let timeOut : Event := ⟨.commandTimedOut, []⟩
    let intent : Event := ⟨.intentRecognized, [123, 125]⟩
    let rs : List Redelivered :=
      [⟨.handle wake 0, [(wake, 0)]⟩, ⟨.handle stop 3000, [(timeOut, 9000)]⟩,
        ⟨.handle wake 4000, [(wake, 1000), (wake, 4001)]⟩, ⟨.handle timeOut 9000, [(stop, 9500)]⟩,
        ⟨.expire 10000, []⟩, ⟨.handle ⟨.textCaptured, [104, 105]⟩ 11000, []⟩,
        ⟨.handle intent 12000, [(intent, 12000)]⟩, ⟨.complete, [(intent, 13000)]⟩]
    let marked := rs.flatMap Redelivered.calls
    let padded := marked.map Prod.fst
    let plain := rs.map Redelivered.call
    m.CopiesFollow none rs ∧
      (m.markedTrace marked).map Prod.fst = m.trace padded ∧
      (∀ a ∈ m.markedTrace marked, a.2 = true →
        a.1.1.commands = [] ∧
          ∃ phase cue reason, a.1.1 = .outcome (.discarded phase cue reason)) ∧
      ((m.markedTrace marked).filter fun a => !a.2).map Prod.fst = m.trace plain ∧
      m.commandLog padded = m.commandLog plain ∧
      (m.after padded).deadline? = (m.after plain).deadline? ∧
      m.after padded = m.after plain := by
  intro m wake stop timeOut intent rs marked padded plain
  have h : m.CopiesFollow none rs := by
    have hphase : (m.after (plain.take 6)).phase = .recognizing := by decide
    have hended : endedBy? (.handle intent 12000)
        ((m.after (plain.take 6)).call (.handle intent 12000)).1 = some intent := by
      rw [call_handle, handle_of_awaited _ _ (by rw [hphase]; decide)]
      rfl
    have hcopy : ∃ e, endedBy? (.handle intent 12000)
        ((m.after (plain.take 6)).call (.handle intent 12000)).1 = some e ∧ intent.IsCopyOf e :=
      ⟨intent, hended, by simp [intent, Event.IsCopyOf, Cue.synonyms]⟩
    simpa [rs, CopiesFollow, source?, Event.IsCopyOf, Cue.synonyms, wake, stop, timeOut, intent,
      plain] using hcopy
  exact ⟨h, copies_invisible m rs h⟩

end Machine

end VoiceTurn
