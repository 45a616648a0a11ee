import VoiceTurn.Proofs.Turn.Run

/-!
# The turns of a run

`Machine.journal` lists what a run shows of its turns: the events accepted, the commands issued and
the endings, each with the number of its turn. A `Chronicle` tells the same run turn by turn. That
the journal of every run is the journal of a sound chronicle says at once that the turns are
numbered without gaps, that they do not overlap, that each of them accepts its events in the order
of the protocol and issues the commands for them once, and that nothing follows its end.
-/

namespace VoiceTurn

/-- How a turn comes to its end. -/
inductive Ending where
  | completed
  | stalled (phase : Phase)
  | interrupted (phase : Phase)
  deriving DecidableEq, Repr

namespace Ending

/-- The commands of an ending: `Phase.compensation`, unless the turn was `completed`. -/
def commands : Ending → List Command
  | completed => []
  | stalled p | interrupted p => p.compensation

def phase? : Ending → Option Phase
  | completed => none
  | stalled p | interrupted p => some p

end Ending

/-- What a journal records. -/
inductive Entry where
  | accepted (e : Event)
  | issued (c : Command)
  | ended (how : Ending)
  deriving DecidableEq, Repr

namespace Entry

def command? : Entry → Option Command
  | issued c => some c
  | accepted _ | ended _ => none

/-- Whether an entry is an `accepted` wake word, with which a turn begins. -/
def isOpening : Entry → Bool
  | accepted e => e.cue = .wakeDetected
  | issued _ | ended _ => false

end Entry

/-- An `accepted` event, followed by the commands `issued` for it. -/
def acceptance (e : Event) (commands : List Command) : List Entry :=
  .accepted e :: commands.map .issued

/-- The end of a turn, followed by the commands `issued` for it. -/
def termination (how : Ending) (commands : List Command) : List Entry :=
  commands.map .issued ++ [.ended how]

def ofTurn (turn : Nat) (entries : List Entry) : List (Nat × Entry) := entries.map (turn, ·)

/-- The entries of one call, each with the number of its turn. Of the commands of an interruption
the first ones, as many as `Phase.compensation` has, belong to the old turn. -/
def Call.entries (c : Call) (r : Reply) : List (Nat × Entry) :=
  match c, r with
  | .handle e _, .outcome (.advanced turn _ _ _ commands _) => ofTurn turn (acceptance e commands)
  | .handle e _, .outcome (.interrupted previous phase turn commands) =>
    let n := phase.compensation.length
    ofTurn previous (termination (.interrupted phase) (commands.take n)) ++
      ofTurn turn (acceptance e (commands.drop n))
  | _, .outcome (.stalled turn phase _ commands) =>
    ofTurn turn (termination (.stalled phase) commands)
  | _, .completed s => ofTurn s.turn (termination .completed [])
  | _, _ => []

/-- The journal of a run: `Call.entries` of each call with its reply. -/
def Machine.journal (m : Machine) : List Call → List (Nat × Entry)
  | [] => []
  | c :: cs => c.entries (m.call c).1 ++ (m.call c).2.journal cs

/-- All commands that a journal holds as `issued`. -/
def issuedIn (journal : List (Nat × Entry)) : List Command :=
  journal.filterMap fun entry => entry.2.command?

/-- The turns for which a journal has an entry that `isOpening`. -/
def openedIn (journal : List (Nat × Entry)) : List Nat :=
  (journal.filter fun entry => entry.2.isOpening).map Prod.fst

/-! ## Events in order -/

/-- The cues of the events are a prefix of wake word, end of command (or time-out), text and
intent. -/
def InOrder (es : List Event) : Prop :=
  ∃ stop ∈ [Cue.commandStopped, .commandTimedOut],
    es.map Event.cue <+: [.wakeDetected, stop, .textCaptured, .intentRecognized]

/-- The phase reached from `idle` by `Phase.following` for each event. -/
def phaseAfter (es : List Event) : Phase := es.foldl (fun p _ => p.following) .idle

/-- Each event is in `Phase.awaited` for the phase that `Phase.following` has led to before it. -/
def Follows (p : Phase) : List Event → Prop
  | [] => True
  | e :: es => e.cue ∈ p.awaited ∧ Follows p.following es

lemma follows_snoc (p : Phase) (es : List Event) (e : Event) :
    Follows p (es ++ [e]) ↔
      Follows p es ∧ e.cue ∈ (es.foldl (fun p _ => p.following) p).awaited := by
  induction es generalizing p with
  | nil => simp [Follows]
  | cons e' es ih => simp [Follows, ih, and_assoc]

/-- The declarative `InOrder` and the recursive `Follows` agree: one event for each phase, and none
after the fourth. -/
lemma inOrder_iff_follows (es : List Event) : InOrder es ↔ Follows .idle es := by
  -- from the fifth event on neither side can hold, so there is no induction
  rcases es with _ | ⟨a, _ | ⟨b, _ | ⟨c, _ | ⟨d, _ | ⟨e, es⟩⟩⟩⟩⟩ <;>
    simp [InOrder, Follows, Phase.awaited, Phase.following, List.cons_prefix_cons] <;>
    grind

/-- What may come after events that are `InOrder` is what `phaseAfter` awaits. -/
lemma inOrder_snoc (es : List Event) (e : Event) :
    InOrder (es ++ [e]) ↔ InOrder es ∧ e.cue ∈ (phaseAfter es).awaited := by
  rw [inOrder_iff_follows, inOrder_iff_follows, follows_snoc, phaseAfter]

lemma phaseAfter_snoc (es : List Event) (e : Event) :
    phaseAfter (es ++ [e]) = (phaseAfter es).following := by
  simp [phaseAfter, List.foldl_append]

lemma inOrder_nil : InOrder [] := (inOrder_iff_follows []).2 trivial

/-! ## Chronicles -/

/-- The `acceptance` of each event, in order. -/
def acceptances (composer : Response.Composer) (es : List Event) : List Entry :=
  es.flatMap fun e => acceptance e (e.commands composer)

/-- A turn that is over. -/
structure Course where
  events : List Event
  ending : Ending
  deriving DecidableEq, Repr

namespace Course

/-- The `acceptances` of a turn and then its `termination`. -/
def entries (composer : Response.Composer) (c : Course) : List Entry :=
  acceptances composer c.events ++ termination c.ending c.ending.commands

/-- The events are `InOrder`, and a turn that was abandoned was so in the phase that `phaseAfter`
gives. -/
structure IsSound (c : Course) : Prop where
  nonempty : c.events ≠ []
  inOrder : InOrder c.events
  ending : ∀ p, c.ending.phase? = some p → p = phaseAfter c.events

end Course

/-- The turns of a run: `past` ones that are over, and the events of the `present` one. -/
structure Chronicle where
  past : List Course := []
  present : Option (List Event) := none

namespace Chronicle

def current (h : Chronicle) : List Event := h.present.getD []

/-- The number of the `present` turn, or of the next one if there is none. -/
def number (h : Chronicle) : Nat := h.past.length + 1

/-- How many turns have been opened, the `present` one included. -/
def opened (h : Chronicle) : Nat := h.past.length + h.present.toList.length

/-- The journal that a chronicle tells: all `Course.entries` of the past turns, and then the
`acceptances` of the present one. -/
def journal (composer : Response.Composer) (h : Chronicle) : List (Nat × Entry) :=
  (h.past.zipIdx 1).flatMap (fun (c, turn) => ofTurn turn (c.entries composer)) ++
    ofTurn h.number (acceptances composer h.current)

/-- Every past turn `IsSound`, and the events of the present one are `InOrder` and not none. -/
structure IsSound (h : Chronicle) : Prop where
  past : ∀ c ∈ h.past, c.IsSound
  present : ∀ es, h.present = some es → es ≠ [] ∧ InOrder es

/-- The session of `m` is the `present` turn, and `m.turns` counts all that have been `opened`. -/
structure Describes (h : Chronicle) (m : Machine) : Prop where
  turns : m.turns = h.opened
  noSession : h.present = none → m.session = none
  session : ∀ es, h.present = some es →
    ∃ progress, m.session = some ⟨h.number, phaseAfter es, progress⟩

/-- The chronicle after an event that `Machine.accept` takes: a further one of the `present` turn,
or the first of a new one. -/
def accept (h : Chronicle) (e : Event) : Chronicle :=
  { h with present := some (h.current ++ [e]) }

/-- The chronicle in which the `present` turn, which had the events `es`, is over. -/
def close (h : Chronicle) (es : List Event) (how : Ending) : Chronicle :=
  { past := h.past ++ [⟨es, how⟩] }

lemma journal_accept (composer : Response.Composer) (h : Chronicle) (e : Event) :
    (h.accept e).journal composer =
      h.journal composer ++ ofTurn h.number (acceptance e (e.commands composer)) := by
  simp [journal, accept, current, number, acceptances, ofTurn]

lemma journal_close (composer : Response.Composer) {h : Chronicle} {es : List Event}
    (hes : h.present = some es) (how : Ending) :
    (h.close es how).journal composer =
      h.journal composer ++ ofTurn h.number (termination how how.commands) := by
  simp [journal, close, current, number, hes, List.zipIdx_append, Course.entries, acceptances,
    ofTurn, Nat.add_comm]

lemma IsSound.inOrder_current {h : Chronicle} (hs : h.IsSound) : InOrder h.current := by
  cases hes : h.present with
  | none => simpa [current, hes] using inOrder_nil
  | some es => simpa [current, hes] using (hs.present es hes).2

lemma IsSound.accept {h : Chronicle} (hs : h.IsSound) {e : Event}
    (he : e.cue ∈ (phaseAfter h.current).awaited) : (h.accept e).IsSound where
  past := hs.past
  present := by
    intro es hes
    obtain rfl := Option.some.inj hes
    exact ⟨by simp, (inOrder_snoc h.current e).2 ⟨hs.inOrder_current, he⟩⟩

lemma IsSound.close {h : Chronicle} (hs : h.IsSound) {es : List Event} (hes : h.present = some es)
    {how : Ending} (hhow : ∀ p, how.phase? = some p → p = phaseAfter es) :
    (h.close es how).IsSound where
  past := by
    intro c hc
    rcases List.mem_append.1 hc with hc | hc
    · exact hs.past c hc
    · obtain rfl := List.mem_singleton.1 hc
      exact ⟨(hs.present es hes).1, (hs.present es hes).2, hhow⟩
  present := nofun

end Chronicle

/-! ## The turns that a journal opens -/

section
variable (turn : Nat) (composer : Response.Composer)

lemma openedIn_append (j k : List (Nat × Entry)) :
    openedIn (j ++ k) = openedIn j ++ openedIn k := by
  simp [openedIn]

/-- A `termination` opens no turn. -/
lemma openedIn_termination (how : Ending) (commands : List Command) :
    openedIn (ofTurn turn (termination how commands)) = [] := by
  simp [openedIn, ofTurn, termination, Entry.isOpening]

lemma openedIn_acceptance (e : Event) (commands : List Command) :
    openedIn (ofTurn turn (acceptance e commands)) =
      if e.cue = .wakeDetected then [turn] else [] := by
  by_cases he : e.cue = .wakeDetected <;>
    simp [openedIn, ofTurn, acceptance, Entry.isOpening, he]

lemma ofTurn_acceptances_cons (e : Event) (es : List Event) :
    ofTurn turn (acceptances composer (e :: es)) =
      ofTurn turn (acceptance e (e.commands composer)) ++
        ofTurn turn (acceptances composer es) := by
  simp [ofTurn, acceptances]

/-- Events that follow a phase other than `idle` hold no wake word, so they open no turn. -/
lemma openedIn_acceptances_of_follows {p : Phase} {es : List Event} (hp : p ≠ .idle)
    (h : Follows p es) : openedIn (ofTurn turn (acceptances composer es)) = [] := by
  induction es generalizing p with
  | nil => rfl
  | cons e es ih =>
    -- a wake word is awaited between two turns only
    have hcue : e.cue ≠ .wakeDetected := by
      intro hcue
      have hawaited := h.1
      rw [hcue] at hawaited
      cases p <;> simp_all [Phase.awaited]
    have hp' : p.following ≠ .idle := by cases p <;> decide
    rw [ofTurn_acceptances_cons, openedIn_append, openedIn_acceptance, if_neg hcue, ih hp' h.2]
    rfl

/-- A turn whose events are `InOrder` is opened once, by the first of them. -/
lemma openedIn_acceptances {es : List Event} (hne : es ≠ []) (h : InOrder es) :
    openedIn (ofTurn turn (acceptances composer es)) = [turn] := by
  cases es with
  | nil => exact absurd rfl hne
  | cons e es =>
    obtain ⟨hcue, hrest⟩ := (inOrder_iff_follows _).1 h
    have hwake : e.cue = .wakeDetected := by simpa [Phase.awaited] using hcue
    rw [ofTurn_acceptances_cons, openedIn_append, openedIn_acceptance, if_pos hwake,
      openedIn_acceptances_of_follows turn composer (by decide) hrest]
    rfl

lemma Course.IsSound.openedIn_entries {c : Course} (h : c.IsSound) :
    openedIn (ofTurn turn (c.entries composer)) = [turn] := by
  have hsplit : ofTurn turn (c.entries composer) = ofTurn turn (acceptances composer c.events) ++
      ofTurn turn (termination c.ending c.ending.commands) := by
    simp [ofTurn, Course.entries]
  rw [hsplit, openedIn_append, openedIn_acceptances turn composer h.nonempty h.inOrder,
    openedIn_termination, List.append_nil]

/-- Courses numbered from `turn` on open the turns from `turn` on, each once. -/
lemma openedIn_courses {cs : List Course} (h : ∀ c ∈ cs, c.IsSound) :
    openedIn ((cs.zipIdx turn).flatMap fun (c, turn) => ofTurn turn (c.entries composer)) =
      List.range' turn cs.length := by
  induction cs generalizing turn with
  | nil => rfl
  | cons c cs ih =>
    rw [List.zipIdx_cons, List.flatMap_cons, openedIn_append,
      (h c List.mem_cons_self).openedIn_entries,
      ih (turn + 1) fun c hc => h c (List.mem_cons_of_mem _ hc)]
    rfl

end

/-- The journal of a sound chronicle opens the turns 1, 2, ... without gaps, as many as `opened`
says. -/
lemma Chronicle.IsSound.openedIn_journal {h : Chronicle} (hs : h.IsSound)
    (composer : Response.Composer) :
    openedIn (h.journal composer) = List.range' 1 h.opened := by
  rw [Chronicle.journal, openedIn_append, openedIn_courses 1 composer hs.past]
  cases hes : h.present with
  | none => simp [Chronicle.current, Chronicle.opened, hes, acceptances, ofTurn, openedIn]
  | some es =>
    obtain ⟨hne, hin⟩ := hs.present es hes
    rw [Chronicle.current, hes, Option.getD_some, openedIn_acceptances _ composer hne hin]
    simp [Chronicle.opened, Chronicle.number, hes, List.range'_concat, Nat.add_comm]

end VoiceTurn
