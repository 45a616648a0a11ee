import Mathlib.Data.Prod.Lex
import Mathlib.Tactic.Lemma
import Mathlib.Tactic.SplitIfs
import VoiceTurn.Proofs.Conductor.Site
import VoiceTurn.Proofs.Tap.Flow

/-!
# What a site does by itself

What a step of a site can be (`Site.Steps`), the moves of a site that is at work (`Site.Move`), and
a measure that they reduce (`Site.backlog`). Handling an event makes commands, and a part that gives
way comes again in the next round, so what is left to do is compared lexicographically.
-/

namespace VoiceTurn

open Bus (Access)

/-! ## Taps -/

namespace Tap

variable {t t' : Tap}

/-- What is left for a tap to do: the records in its queue, and to stop unless it has. -/
def backlog (t : Tap) : Nat := t.queue.length + if t.stage = .stopped then 0 else 1

def backlogs : List Tap → Nat
  | [] => 0
  | t :: taps => t.backlog + backlogs taps

lemma backlog_step (h : t.step? = some t') : t'.backlog < t.backlog := by
  have hone (stage : Stage) : (if stage = .stopped then 0 else 1) ≤ 1 := by
    split_ifs <;> decide
  rcases step?_cases h with ⟨r, queue, stage, hqueue, hgoing, -, rfl⟩ | ⟨-, hstage, rfl⟩
  · have hstage := hone stage
    simp only [backlog, hqueue, List.length_cons, if_neg hgoing]
    omega
  · simp [backlog, hstage]

lemma backlogs_set {taps : List Tap} {index : Nat} (htap : taps[index]? = some t)
    (hlt : t'.backlog < t.backlog) : backlogs (taps.set index t') < backlogs taps := by
  induction taps generalizing index with
  | nil => cases htap
  | cons first taps ih =>
    cases index with
    | zero =>
      cases htap
      exact Nat.add_lt_add_right hlt _
    | succ index => exact Nat.add_lt_add_left (ih htap) _

end Tap

namespace Conductor.Site

/-! ## Moves -/

/-- What a site at work can do by itself. -/
inductive Move (s : Site) : Site → Prop where
  | read {s' : Site} (hread : s.readStep? = some s') : s.Move s'
  | handle {e : Event} {items : List Event} (hawake : s.IsAwake .worker)
      (hjob : s.worker.job = .waiting) (hitems : s.inbox.items = e :: items) :
      s.Move ({ s with inbox := { s.inbox with items } }.spend.took (s.worker.handle e s.now))
  | send {c : Command} {topic : String} {rest : List (Command × String)} {ending : Option Phase}
      (hawake : s.IsAwake .worker) (hjob : s.worker.job = .sending (c, topic) rest ending) :
      s.Move (s.attempt ⟨topic, c.payload, s.worker.qos⟩)
  | record {index : Nat} {t t' : Tap} (htap : s.taps[index]? = some t)
      (hstep : t.step? = some t') : s.Move { s with taps := s.taps.set index t' }.spend
  | rest {p : Part} {ps : List Part} (hready : s.ready = p :: ps)
      (hidle : p = .worker → s.worker.job = .waiting ∧ s.inbox.items = []) :
      s.Move { s with ready := ps, left := share }
  | giveWay {p : Part} {ps : List Part} (hready : s.ready = p :: ps) (hleft : s.left = 0) :
      s.Move { s with ready := ps, yielded := s.yielded ++ [p], left := share }
  | nextRound (hyielded : s.yielded ≠ []) :
      s.Move { s with ready := s.ready ++ s.yielded, yielded := [] }

variable {s s' : Site}

lemma tapStep?_eq_some {index : Nat} (hstep : s.tapStep? index = some s') :
    ∃ t, s.taps[index]? = some t ∧ ∃ t', t.step? = some t' ∧
      s' = { s with taps := s.taps.set index t' }.spend := by
  obtain ⟨t, htap, hstep⟩ := Option.bind_eq_some_iff.1 hstep
  obtain ⟨t', htap', hs'⟩ := Option.bind_eq_some_iff.1 hstep
  exact ⟨t, htap, t', htap', (Option.some.inj hs').symm⟩

/-! ## Steps and rounds -/

/-- Everything that a `step?` can be: the site reads what has arrived, or the first of the parts
that are `ready` gives way to the others, goes on, or comes to rest. -/
inductive Steps (s : Site) : Site → Prop where
  | read {s' : Site} (hread : s.readStep? = some s') : s.Steps s'
  | giveWay {p : Part} {ps : List Part} (hready : s.ready = p :: ps) (hleft : s.left = 0) :
      s.Steps { s with ready := ps, yielded := s.yielded ++ [p], left := share }
  | goOn {p : Part} {ps : List Part} {s' : Site} (hready : s.ready = p :: ps)
      (hpart : s.partStep? p = some s') : s.Steps s'
  | rest {p : Part} {ps : List Part} (hready : s.ready = p :: ps) (hpart : s.partStep? p = none) :
      s.Steps { s with ready := ps, left := share }

lemma steps_of_step? (hstep : s.step? = some s') : s.Steps s' := by
  unfold step? at hstep
  cases hread : s.readStep? with
  | some read =>
    rw [hread] at hstep
    cases hstep
    exact .read hread
  | none =>
    cases hready : s.ready with
    | nil => simp [hread, hready] at hstep
    | cons p ps =>
      simp only [hread, hready] at hstep
      split_ifs at hstep with hshare
      · cases hstep
        exact .giveWay hready (of_decide_eq_true (Bool.and_eq_true_iff.1 hshare).1)
      · cases hstep
        cases hpart : s.partStep? p with
        | some parted => exact .goOn hready hpart
        | none => exact .rest hready hpart

/-- No `step?` is left when there is nothing to read and nobody is `ready`. -/
lemma step?_eq_none_iff : s.step? = none ↔ s.readStep? = none ∧ s.ready = [] := by
  unfold step?
  cases s.readStep? with
  | some read => simp
  | none =>
    cases s.ready with
    | nil => simp
    | cons p ps =>
      simp only
      split_ifs <;> simp

lemma nextRound?_eq_none_iff : s.nextRound? = none ↔ s.yielded = [] := by
  unfold nextRound?
  cases s.yielded <;> simp

lemma nextRound?_eq_some_iff : s.nextRound? = some s' ↔
    s.yielded ≠ [] ∧ s' = { s with ready := s.ready ++ s.yielded, yielded := [] } := by
  unfold nextRound?
  cases s.yielded <;> simp [eq_comm]

lemma move_of_nextRound? (hround : s.nextRound? = some s') : s.Move s' := by
  obtain ⟨hyielded, rfl⟩ := nextRound?_eq_some_iff.1 hround
  exact .nextRound hyielded

/-! ## What is left to do -/

/-- The measure of a site at work, the most pressing first: the bytes to read, what is in the
queues, the commands at hand, the parts that are `ready`, a share that has been used up, and the
parts that have `yielded`. -/
def backlog (arrived : Bytes) (s : Site) : Nat ×ₗ Nat ×ₗ Nat ×ₗ Nat ×ₗ Nat ×ₗ Nat :=
  toLex (arrived.length, toLex (s.inbox.items.length + Tap.backlogs s.taps,
    toLex (s.worker.pending.length, toLex (s.ready.length + s.yielded.length,
      toLex (if s.left = 0 then 1 else 0, s.yielded.length)))))

section
variable {arrived : Bytes}

lemma backlog_read (harrived : arrived ≠ []) : s'.backlog [] < s.backlog arrived :=
  .left _ _ (List.length_pos_iff.2 harrived)

lemma backlog_handle {e : Event} {items : List Event} (hitems : s.inbox.items = e :: items)
    (w : Worker × List Notice) :
    ({ s with inbox := { s.inbox with items } }.spend.took w).backlog arrived <
      s.backlog arrived := by
  refine .right _ (.left _ _ ?_)
  show items.length + _ < s.inbox.items.length + _
  rw [hitems, List.length_cons]
  exact Nat.add_lt_add_right (Nat.lt_succ_self _) _

lemma backlog_sent {c : Command} {topic : String} {rest : List (Command × String)}
    {ending : Option Phase} (hjob : s.worker.job = .sending (c, topic) rest ending)
    (result : Except Bus.Failure Unit) (access : Access Receiver) (pausedUntil : Option Nat)
    (tried : Nat) :
    ({ s with access, pausedUntil, tried }.took (s.worker.sent result)).backlog arrived <
      s.backlog arrived := by
  obtain ⟨-, hpending, -, -⟩ := Worker.sent_spec hjob result
  refine .right _ (.right _ (.left _ _ ?_))
  show (s.worker.sent result).1.pending.length < s.worker.pending.length
  rw [hpending, Worker.pending, hjob]
  exact Nat.lt_succ_self _

lemma backlog_record {index : Nat} {t t' : Tap} (htap : s.taps[index]? = some t)
    (hstep : t.step? = some t') :
    ({ s with taps := s.taps.set index t' }.spend).backlog arrived < s.backlog arrived :=
  .right _ (.left _ _ (Nat.add_lt_add_left (Tap.backlogs_set htap (Tap.backlog_step hstep)) _))

lemma backlog_rest {p : Part} {ps : List Part} (hready : s.ready = p :: ps) (left : Nat) :
    { s with ready := ps, left }.backlog arrived < s.backlog arrived := by
  refine .right _ (.right _ (.right _ (.left _ _ ?_)))
  show ps.length + _ < s.ready.length + _
  rw [hready, List.length_cons]
  exact Nat.add_lt_add_right (Nat.lt_succ_self _) _

/-- A part gives way with a fresh `share`, and stays awake. -/
lemma backlog_giveWay {p : Part} {ps : List Part} (hready : s.ready = p :: ps)
    (hleft : s.left = 0) :
    { s with ready := ps, yielded := s.yielded ++ [p], left := share }.backlog arrived <
      s.backlog arrived := by
  have hawake : ps.length + (s.yielded ++ [p]).length = s.ready.length + s.yielded.length := by
    rw [hready, List.length_append, List.length_singleton, List.length_cons]
    omega
  have hshare : (if share = 0 then 1 else 0) < if s.left = 0 then 1 else 0 := by
    rw [if_pos hleft]
    decide
  show toLex _ < toLex _
  rw [hawake]
  exact .right _ (.right _ (.right _ (.right _ (.left _ _ hshare))))

lemma backlog_nextRound (hyielded : s.yielded ≠ []) :
    { s with ready := s.ready ++ s.yielded, yielded := [] }.backlog arrived <
      s.backlog arrived := by
  have hawake : (s.ready ++ s.yielded).length + ([] : List Part).length =
      s.ready.length + s.yielded.length := by
    rw [List.length_append, List.length_nil, Nat.add_zero]
  have hpos : ([] : List Part).length < s.yielded.length := List.length_pos_iff.2 hyielded
  show toLex _ < toLex _
  rw [hawake]
  exact .right _ (.right _ (.right _ (.right _ (.right _ hpos))))

end

end Conductor.Site

end VoiceTurn
